import Lspee.Theory.Proxy
import Lspee.Theory.Tunnel

/-!
# From the Editor to the Server

Whether what an editor writes reaches the language server. Its bytes arrive in pieces
at the proxy, which reads messages from them, keeps some to itself, and puts the others
into numbered frames. The frames are lines in the socket, which the daemon reads back
and hands to the runtime; there they wait in the queue together with the requests of
every other client, until the writer task writes them to the server.

Nothing of this adds a message, loses one, or changes the order. At any time the frames
that the daemon has read and the ones that are still in the socket are, one after the
other, the ones that the proxy has sent (`Upward`), and those are the messages of the
editor that the proxy does not keep to itself (`sent_forwardable`). What follows in the
daemon is `Ordered`, for any number of other clients. So what the server has read of
this connection is at any time a prefix of what it should read, and once nothing is
under way, all of it (`editor_reaches_server`).

Two conditions remain. No line of the stream may drop the future that reads the
editor's bytes where this loses some (`DropCond`); and the server's input must not have
failed.

## Main definitions

* `forwardable`: What a server is to read of what an editor writes.
* `framesOf`: The frames of one connection.
* `Proxy.Finished`: The proxy has read everything.
* `Handles`: What the proxy has handled of the editor's messages.
* `Upward`: What is in the socket.
* `DropCond`: The condition on a step.

## Theorems

* `handles_step`, `sent_forwardable`: The proxy.
* `upward_step`: The socket and the daemon.
* `editor_reaches_server`: What the server reads.
-/

namespace Lspee

open Transition Utf8

/-- What a server is to read of what an editor writes: the messages before the exit
    notification, without those that the proxy keeps to itself. -/
def forwardable (values : List Json) : List Json :=
  (values.takeWhile fun value => !exitNotification value).filter forwards

/-- The frames that one connection has sent. -/
def framesOf (n : Nat) (frames : List (Nat × StreamFrame)) : List StreamFrame :=
  (frames.filter fun p => p.1 == n).map Prod.snd

theorem framesOf_append (n k : Nat) (frames : List (Nat × StreamFrame)) (frame : StreamFrame) :
    framesOf n (frames ++ [(k, frame)]) =
      framesOf n frames ++ if k = n then [frame] else [] := by
  by_cases hk : k = n <;> simp [framesOf, hk]

/-- Frames that are all for the lease of their stream are all forwarded. -/
theorem matching_framesOf (h : Sharing) (n : Nat) (u : LeaseStream)
    (hu : h.streams.get? n = some u) (frames : List (Nat × StreamFrame))
    (hall : ∀ frame ∈ framesOf n frames, u.forwards frame = true) :
    h.matching n frames = (framesOf n frames).map StreamFrame.payload := by
  have hsame : (frames.filter fun p => p.1 == n && u.forwards p.2) =
      frames.filter fun p => p.1 == n := by
    refine List.filter_congr fun p hp => ?_
    by_cases hn : p.1 = n
    · have hframe := hall p.2 (List.mem_map.mpr ⟨p, List.mem_filter.mpr ⟨hp, by simp [hn]⟩, rfl⟩)
      rw [hframe, Bool.and_true]
    · simp [hn]
  simp only [Sharing.matching, hu, hsame, framesOf, List.map_map]
  rfl

/-! ### The proxy -/

namespace Proxy

variable {fromSlice : List UInt8 → Option Json} {fromStr : List Char → Option StreamFrame}

/-- The proxy has read everything that the editor writes, or the exit notification. -/
def Finished (p : Proxy) : Prop :=
  (p.pc = .running ∧ p.arrived = [] ∧ p.coming = []) ∨ p.pc = .returned .inputClosed ∨
    p.pc = .returned .exit

/-- The message that the proxy has handled last is the exit notification. -/
def Exited (p : Proxy) : Prop :=
  p.pc = .returned .exit → ∃ before message, p.handed = before ++ [message] ∧
    exitNotification message = true

theorem exited_of_other (p : Proxy) (h : p.pc ≠ .returned .exit) : Exited p :=
  fun hpc => absurd hpc h

theorem exited_handle (p : Proxy) (message : Json) (writes : Bool) (hpc : p.pc = .running) :
    Exited (p.handle message writes) := by
  have hnot : ProxyPc.running ≠ .returned .exit := by simp
  rcases handle_cases message p.initializeResult p.leaseId p.seq with
    ⟨response, id, hhandled, _⟩ | ⟨hhandled, _⟩ | ⟨hhandled, hexit⟩ | ⟨hhandled, _⟩
  · refine exited_of_other _ ?_
    cases writes <;> simp [handle, hhandled, writeLspMessage, finish, hpc]
  · refine exited_of_other _ ?_
    simp [handle, hhandled, hpc]
  · exact fun _ => ⟨p.handed, message, handle_handed p message writes, hexit⟩
  · refine exited_of_other _ ?_
    cases writes <;> simp [handle, hhandled, finish, hpc]

theorem exited_handleStream (p : Proxy) (next : StreamRead) (writes : Bool)
    (hpc : p.pc = .running) : Exited (p.handleStream fromStr next writes) := by
  refine exited_of_other _ ?_
  unfold handleStream
  cases next with
  | closed => simp [finish]
  | failed => simp [finish]
  | line text =>
      cases hread : fromStr text with
      | none => simp [finish, hread]
      | some frame =>
          cases hframe : frame.frameType with
          | lspIn => simp [hread, hframe, hpc]
          | lspOut => cases writes <;> simp [hread, hframe, writeLspMessage, finish, hpc]
          | streamError =>
              cases hpayload : StreamErrorPayload.fromValue frame.payload with
              | none => simp [hread, hframe, hpayload, finish]
              | some payload => cases writes <;> simp [hread, hframe, hpayload, finish]

theorem exited_step (p p' : Proxy) (a : ProxyAction) (h : Exited p)
    (hstep : p.step fromSlice fromStr a = some p') : Exited p' := by
  cases a with
  | arrive n =>
      simp only [step, Option.some.injEq] at hstep
      rw [← hstep]
      exact h
  | pollInput writes =>
      cases hpc : p.pc with
      | returned reason => exact absurd hstep (by simp [step, hpc])
      | running =>
          simp only [step, hpc, Option.some.injEq, poll] at hstep
          rw [← hstep]
          cases hpoll : (frameReader fromSlice).poll p.frame p.arrived with
          | pending frame => exact exited_of_other _ (by simp)
          | failed => exact exited_of_other _ (by simp [finish])
          -- Only a message can be an `exit`.
          | ready message rest => exact exited_handle _ message writes rfl
  | inputEnds writes =>
      simp only [step] at hstep
      split at hstep
      · rename_i hpc harrived hcoming
        simp only [Option.some.injEq, endInput] at hstep
        rw [← hstep]
        split
        · exact exited_of_other _ (by simp [finish])
        · exact exited_handle _ _ writes hpc
        · exact exited_of_other _ (by simp [finish])
      · exact absurd hstep (by simp)
  | streamReady next writes =>
      rcases step_streamReady fromSlice fromStr p p' next writes hstep with ⟨hpc, hp'⟩
      rw [hp']
      exact exited_handleStream _ next writes hpc

/-- The frames of the proxy become more. -/
theorem sent_grows (p p' : Proxy) (a : ProxyAction)
    (hstep : p.step fromSlice fromStr a = some p') : p.sent <+: p'.sent := by
  rcases step_cases fromSlice fromStr p p' a hstep with hquiet | ⟨message, writes, hhandling⟩
  · rw [hquiet.sent]
  · rcases hhandling.handles with ⟨t, hsame, _, _, hp'⟩
    rw [hp', ← hsame.sent]
    rcases handle_cases message t.initializeResult t.leaseId t.seq with
      ⟨response, id, hhandled, _⟩ | ⟨hhandled, _⟩ | ⟨hhandled, _⟩ | ⟨hhandled, _⟩
    · cases writes <;> simp [handle, hhandled, writeLspMessage, finish]
    · simp [handle, hhandled]
    · simp [handle, hhandled, finish]
    · cases writes <;> simp [handle, hhandled, finish]

variable (fromSlice) in
/-- What the proxy has handled of the editor's messages. -/
structure Handles (values : List Json) (p : Proxy) (messages answers : List Json) : Prop where
  aligned : Aligned fromSlice values p
  faithful : Faithful fromSlice values p
  handed : HandedOn p.leaseId messages p
  account : Account messages answers p
  exited : Exited p

/-- What a step keeps. -/
theorem handles_step (hjson : ClosesStrings fromSlice) (values : List Json) (p p' : Proxy)
    (a : ProxyAction) (messages answers : List Json)
    (h : Handles fromSlice values p messages answers)
    (hstep : p.step fromSlice fromStr a = some p') (hcond : DropCond fromSlice fromStr p a) :
    p'.leaseId = p.leaseId ∧
      Handles fromSlice values p' (messages ++ (handledAt fromSlice fromStr p a).toList)
        (answers ++ (answeredAt fromSlice fromStr p a).toList) := by
  rcases aligned_keep fromSlice fromStr hjson values p p' a h.aligned h.faithful hstep hcond with
    ⟨haligned, hfaithful⟩
  have hhanded := handedOn_step fromSlice fromStr p.leaseId messages p p' a hstep h.handed
  refine ⟨hhanded.1, haligned, hfaithful, ?_, ?_, exited_step p p' a h.exited hstep⟩
  · rw [hhanded.1]
    exact hhanded
  · exact account_step fromSlice fromStr messages answers p p' a hstep h.account

/-- What was handed on are the editor's first messages. -/
theorem handed_values (values : List Json) (p : Proxy) (messages answers : List Json)
    (h : Handles fromSlice values p messages answers) : p.handed <+: values := by
  have hfaithful := h.faithful
  unfold Faithful at hfaithful
  cases hpc : p.pc with
  | running =>
      rw [hpc] at hfaithful
      rcases hfaithful with ⟨rest, _, hvalues⟩
      exact ⟨rest, hvalues⟩
  | returned reason =>
      rw [hpc] at hfaithful
      cases reason with
      | inputClosed => exact hfaithful ▸ List.prefix_rfl
      | inputFailed => exact absurd hfaithful not_false
      | _ => exact hfaithful

/-- A proxy to which nothing more comes has handed everything on. -/
theorem handed_of_empty (values : List Json) (p : Proxy) (h : Aligned fromSlice values p)
    (hpc : p.pc = .running) (harrived : p.arrived = []) (hcoming : p.coming = []) :
    p.handed = values := by
  rcases h hpc with ⟨taken, messages, hmessages, hpending, hinput, hvalues⟩
  rw [harrived, hcoming, List.append_nil, List.append_nil] at hinput
  cases messages with
  | nil =>
      rw [List.map_nil, List.append_nil] at hvalues
      exact hvalues
  | cons m messages =>
      -- A message that has been taken whole has been handed on.
      have hfirst := encodes_message fromSlice m (hmessages m List.mem_cons_self)
      unfold Reader.Encodes at hfirst
      rw [hinput, List.flatMap_cons, Reader.poll_append, ← frameReader_start fromSlice,
        hfirst] at hpending
      exact absurd hpending (by simp)

/-- The frames that the proxy has sent hold the first of the messages to forward, and
    all of them once it has read everything. -/
theorem sent_forwardable (values : List Json) (p : Proxy) (messages answers : List Json)
    (h : Handles fromSlice values p messages answers) :
    p.sent.map StreamFrame.payload <+: forwardable values ∧
      (p.Finished → p.sent.map StreamFrame.payload = forwardable values) := by
  have hvalues := handed_values values p messages answers h
  have hmessages : messages <+: p.handed := by
    rcases h.handed.2 with hhanded | ⟨message, hhanded, _⟩
    · rw [hhanded]
    · exact ⟨[message], hhanded.symm⟩
  rcases h.account with ⟨before, last, hsplit, hnone, hlast, hsent, _, _⟩
  have htake : ∀ rest, (before ++ rest).takeWhile (fun value => !exitNotification value) =
      before ++ rest.takeWhile (fun value => !exitNotification value) := fun rest =>
    List.takeWhile_append_of_pos fun value hmem => by simp [hnone value hmem]
  rw [hsent, map_payload_framesFrom]
  constructor
  · rcases (List.prefix_append before last).trans (hsplit ▸ hmessages.trans hvalues) with
      ⟨rest, hrest⟩
    rw [forwardable, ← hrest, htake, List.filter_append]
    exact List.prefix_append _ _
  · intro hfinished
    have hall : before = values → before.filter forwards = forwardable values := by
      intro hbefore
      have hwhole := htake []
      rw [List.append_nil, List.takeWhile_nil, List.append_nil] at hwhole
      rw [forwardable, ← hbefore, hwhole]
    -- Where no exit notification was handled, the messages handed on are the ones before it.
    have hhanded : p.pc ≠ .returned .exit → p.pc ≠ .returned .writeFailed → before = p.handed := by
      intro hexit hfailed
      rcases hlast with hlast | ⟨_, _, _, hpc⟩
      · rcases h.handed.2 with hhanded | ⟨_, _, hpc⟩
        · rw [hhanded, hsplit, hlast, List.append_nil]
        · exact absurd hpc hfailed
      · exact absurd hpc hexit
    rcases hfinished with ⟨hpc, harrived, hcoming⟩ | hpc | hpc
    · refine hall ((hhanded (by simp [hpc]) (by simp [hpc])).trans ?_)
      exact handed_of_empty values p h.aligned hpc harrived hcoming
    · refine hall ((hhanded (by simp [hpc]) (by simp [hpc])).trans ?_)
      have hfaithful := h.faithful
      unfold Faithful at hfaithful
      rw [hpc] at hfaithful
      exact hfaithful
    · -- the exit notification comes after them, and ends what is to be forwarded
      rcases h.exited hpc with ⟨others, message, hexited, hexit⟩
      have hsame : p.handed = before ++ last := by
        rcases h.handed.2 with hhanded | ⟨_, _, hfailed⟩
        · rw [hhanded, hsplit]
        · rw [hpc] at hfailed
          cases hfailed
      rcases hlast with hlast | ⟨message', hlast, hexit', _⟩
      · rw [hsame, hlast, List.append_nil] at hexited
        have hnot := hnone message (hexited ▸ List.mem_append_right _ List.mem_cons_self)
        rw [hexit] at hnot
        cases hnot
      · rcases hvalues with ⟨rest, hrest⟩
        rw [forwardable, ← hrest, hsame, hlast, List.append_assoc, htake, List.singleton_append,
          List.takeWhile_cons_of_neg (by simp [hexit']), List.append_nil]

theorem handles_attached (initializeResult : Json) (leaseId : String)
    (messages : List EditorMessage) (hmessages : ∀ m ∈ messages, m.WellFormed fromSlice) :
    Handles fromSlice (messages.map EditorMessage.payload)
      (attached fromSlice initializeResult leaseId (messages.flatMap EditorMessage.encode))
      [] [] where
  aligned := fun _ => ⟨[], messages, hmessages, rfl, rfl, rfl⟩
  faithful := faithful_of_aligned fromSlice _ _ rfl
    fun _ => ⟨[], messages, hmessages, rfl, rfl, rfl⟩
  handed := ⟨rfl, .inl rfl⟩
  account := account_attached fromSlice initializeResult leaseId _
  exited := exited_of_other _ (by simp [attached])

end Proxy

/-! ### The socket and the daemon -/

namespace Tunnel

variable {fromSlice : List UInt8 → Option Json}
variable {toString : Json → List Char} {fromStr : List Char → Option Json}

/-- The frames that the proxy has sent are read back. -/
def SentBack (toString : Json → List Char) (fromStr : List Char → Option Json) (s : Tunnel) :
    Prop :=
  ∀ frame ∈ s.proxy.sent, ReadBack toString fromStr frame

/-- A line of the stream drops the future that reads the editor's bytes where this loses
    nothing. -/
def DropCond (fromSlice : List UInt8 → Option Json) (fromStr : List Char → Option Json)
    (s : Tunnel) : TunnelAction → Prop
  | .hear writes =>
    Proxy.DropCond fromSlice (frameOf fromStr) s.proxy (.streamReady s.nextRead.1 writes)
  | _ => True

/-- The frames that the daemon has read of the connection, and those that are in the
    socket, are the ones that the proxy has sent. -/
structure Upward (toString : Json → List Char) (s : Tunnel) (t : Server) (u : LeaseStream)
    (pending : List StreamFrame) : Prop extends s.Joined t u where
  waiting : s.toDaemon = writeFrames toString pending
  sent : s.proxy.sent = framesOf s.n t.frames ++ pending

/-- What holds along a run of the editor's messages. -/
structure Ascending (fromSlice : List UInt8 → Option Json) (toString : Json → List Char)
    (values : List Json) (s : Tunnel) : Prop where
  orderly : s.fleet.Orderly
  handles : ∃ messages answers, Proxy.Handles fromSlice values s.proxy messages answers
  upward : ∃ t u pending, Upward toString s t u pending

/-- What the proxy sends is numbered, and for its lease. -/
theorem sent_fits (values : List Json) (s : Tunnel) (h : Ascending fromSlice toString values s)
    (frame : StreamFrame) (hframe : frame ∈ s.proxy.sent) :
    frame.v < 2 ^ 32 ∧ frame.frameType = .lspIn ∧ frame.leaseId = s.proxy.leaseId := by
  rcases h.handles with ⟨messages, answers, hhandles⟩
  rcases hhandles.account with ⟨before, _, _, _, _, hsent, _, _⟩
  rw [hsent, framesFrom, List.mem_map] at hframe
  rcases hframe with ⟨m, _, rfl⟩
  have hv : protocolVersion < 2 ^ 32 := by decide
  exact ⟨hv, rfl, rfl⟩

/-- A step of the fleet that is none of the connection's reads no frame of it. -/
theorem framesOf_served (n : Nat) (server : CallId) (t t' : Server) (a : FleetAction)
    (h : Fleet.Served server t a t')
    (ha : ∀ frame call, a ≠ .server server (.frame n frame call)) :
    framesOf n t'.frames = framesOf n t.frames := by
  cases h with
  | aside _ hframes => rw [hframes]
  | act b hb _ _ hframes =>
      rw [hframes]
      cases b with
      | frame k frame call =>
          have hk : k ≠ n := by
            rintro rfl
            exact ha frame call hb
          rw [Server.noteFrame, framesOf_append, if_neg hk, List.append_nil]
      | _ => rfl

/-- The daemon makes a step that reads no frame of the connection. -/
theorem upward_fleet (s s' : Tunnel) (t : Server) (u : LeaseStream) (pending : List StreamFrame)
    (h : Upward toString s t u pending) (a : FleetAction) (hstep : s.fleet.step a = some s'.fleet)
    (ha : ∀ frame call, a ≠ .server s.server (.frame s.n frame call))
    (hserver : s'.server = s.server) (hn : s'.n = s.n) (hproxy : s'.proxy = s.proxy)
    (hbytes : s'.toDaemon = s.toDaemon) : ∃ t' u', Upward toString s' t' u' pending := by
  rcases joined_fleet s s' t u h.toJoined a hstep hserver hn hproxy with ⟨t', u', hjoined, hserved⟩
  refine ⟨t', u', hjoined, by rw [hbytes, h.waiting], ?_⟩
  rw [hproxy, hn, framesOf_served s.n s.server t t' a hserved ha, h.sent]

/-- The proxy makes a step; what it has sent is in the socket. -/
theorem upward_proxy (s s' : Tunnel) (t : Server) (u : LeaseStream) (pending : List StreamFrame)
    (h : Upward toString s t u pending) (a : ProxyAction)
    (hstep : s.moveProxy fromSlice toString fromStr a = some s')
    (hlease : ∀ p, s.proxy.step fromSlice (frameOf fromStr) a = some p →
      p.leaseId = s.proxy.leaseId) : ∃ more, Upward toString s' t u (pending ++ more) := by
  simp only [moveProxy, Option.map_eq_some_iff] at hstep
  rcases hstep with ⟨p, hp, hs'⟩
  have hgrows := List.prefix_iff_eq_append.mp (Proxy.sent_grows s.proxy p a hp)
  rw [← hs']
  refine ⟨p.sent.drop s.proxy.sent.length, ⟨h.server, h.stream, ?_⟩, ?_, ?_⟩
  · rw [h.lease, hlease p hp]
  · rw [h.waiting, writeFrames_append]
  · change p.sent = _
    rw [← List.append_assoc, ← h.sent, hgrows]

/-- The daemon reads the first frame in the socket, or finds the end. -/
theorem upward_readLine (hcompact : Json.PrintsCompact toString) (s s' : Tunnel) (t : Server)
    (u : LeaseStream) (pending : List StreamFrame) (h : Upward toString s t u pending)
    (hfits : ∀ frame ∈ pending, frame.v < 2 ^ 32)
    (hback : ∀ frame ∈ pending, ReadBack toString fromStr frame) (call : CallId)
    (hstep : s.readLine fromStr call = some s') :
    s'.proxy = s.proxy ∧ (∃ a, s.fleet.step a = some s'.fleet) ∧
      ∃ t' u' pending', Upward toString s' t' u' pending' := by
  simp only [readLine, Option.ite_none_right_eq_some] at hstep
  have hstep := hstep.2
  cases pending with
  | nil =>
      rw [h.waiting, nextLine_empty] at hstep
      rcases onStream_step s s' _ hstep with ⟨hfleet, hs'⟩
      rcases upward_fleet s s' t u [] h _ hfleet (by simp) (by rw [hs']) (by rw [hs'])
        (by rw [hs']) (by rw [hs']) with ⟨t', u', hupward⟩
      exact ⟨by rw [hs'], ⟨_, hfleet⟩, t', u', [], hupward⟩
  | cons frame rest =>
      rw [h.waiting, nextLine_writeFrames hcompact] at hstep
      simp only [frameOf_toString frame (hfits frame List.mem_cons_self)
        (hback frame List.mem_cons_self)] at hstep
      rcases onStream_step _ s' _ hstep with ⟨hfleet, hs'⟩
      rcases joined_fleet s s' t u h.toJoined _ hfleet (by rw [hs']) (by rw [hs']) (by rw [hs'])
        with ⟨t', u', hjoined, hserved⟩
      refine ⟨by rw [hs'], ⟨_, hfleet⟩, t', u', rest, hjoined, by rw [hs'], ?_⟩
      -- The frame has gone from the socket to the daemon.
      cases hserved with
      | aside ha => exact absurd rfl (ha _)
      | act b hb _ _ hframes =>
          simp only [FleetAction.server.injEq, true_and] at hb
          rw [hframes, ← hb, Server.noteFrame, hs']
          change s.proxy.sent = framesOf s.n (t.frames ++ [(s.n, frame)]) ++ rest
          rw [framesOf_append, if_pos rfl, h.sent, List.append_assoc, List.singleton_append]

/-- The proxy makes a step of its own, or hears a line. -/
theorem ascending_proxy (hjson : ClosesStrings fromSlice) (values : List Json) (s s' : Tunnel)
    (h : Ascending fromSlice toString values s) (a : ProxyAction)
    (hstep : s.moveProxy fromSlice toString fromStr a = some s')
    (hcond : Proxy.DropCond fromSlice (frameOf fromStr) s.proxy a) :
    Ascending fromSlice toString values s' := by
  rcases h.handles with ⟨messages, answers, hhandles⟩
  rcases h.upward with ⟨t, u, pending, hupward⟩
  have hmoves := fun p hp => Proxy.handles_step hjson values s.proxy p a messages answers hhandles
    hp hcond
  rcases upward_proxy s s' t u pending hupward a hstep fun p hp => (hmoves p hp).1 with
    ⟨more, hupward'⟩
  simp only [moveProxy, Option.map_eq_some_iff] at hstep
  rcases hstep with ⟨p, hp, rfl⟩
  exact ⟨h.orderly, ⟨_, _, (hmoves p hp).2⟩, t, u, _, hupward'⟩

/-- What the proxy has sent becomes more. -/
theorem sentBack_before (s s' : Tunnel) (a : TunnelAction)
    (hstep : s.step fromSlice toString fromStr a = some s')
    (h : SentBack toString fromStr s') : SentBack toString fromStr s := by
  intro frame hframe
  rcases proxy_step s s' a (goes_step s s' a hstep) with hsame | ⟨b, hb⟩
  · exact h frame (hsame ▸ hframe)
  · exact h frame ((Proxy.sent_grows s.proxy s'.proxy b hb).subset hframe)

/-- What one step keeps. -/
theorem upward_step (hcompact : Json.PrintsCompact toString) (hjson : ClosesStrings fromSlice)
    (values : List Json) (s s' : Tunnel) (a : TunnelAction)
    (hstep : s.step fromSlice toString fromStr a = some s')
    (hback : SentBack toString fromStr s) (hcond : DropCond fromSlice fromStr s a)
    (h : Ascending fromSlice toString values s) : Ascending fromSlice toString values s' := by
  rcases h.upward with ⟨t, u, pending, hupward⟩
  have hpending : ∀ frame ∈ pending, frame ∈ s.proxy.sent := fun frame hframe => by
    rw [hupward.sent]
    exact List.mem_append_right _ hframe
  cases goes_step s s' a hstep with
  | fleet b fleet hmay hfleet =>
      -- A frame of the connection is read by `readLine`, and not here.
      have hb : ∀ frame call, b ≠ .server s.server (.frame s.n frame call) := by
        rintro frame call rfl
        simp [mayMove] at hmay
      rcases upward_fleet s { s with fleet := fleet, spoken := s.spoken ++ s.emitted b } t u
        pending hupward b hfleet hb rfl rfl rfl rfl with ⟨t', u', hupward'⟩
      exact ⟨Fleet.orderly_step s.fleet fleet b h.orderly hfleet, h.handles, t', u', pending,
        hupward'⟩
  | editor b _ hb hmove =>
      refine ascending_proxy hjson values s s' h b hmove ?_
      cases b with
      | streamReady next writes => exact absurd rfl (hb next writes)
      | _ => trivial
  | readLine call _ hread =>
      rcases upward_readLine hcompact s s' t u pending hupward
        (fun frame hframe => (sent_fits values s h frame (hpending frame hframe)).1)
        (fun frame hframe => hback frame (hpending frame hframe)) call hread with
        ⟨hproxy, ⟨b, hfleet⟩, t', u', pending', hupward'⟩
      refine ⟨Fleet.orderly_step s.fleet s'.fleet b h.orderly hfleet, ?_, t', u', pending',
        hupward'⟩
      rw [hproxy]
      exact h.handles
  | write frame v rest fleet hv hqueue hfleet =>
      rcases upward_fleet s { s with
          fleet := fleet
          toProxy := s.toProxy ++ writeFrames toString [frame.content] } t u pending hupward _
        hfleet (by simp) rfl rfl rfl rfl with ⟨t', u', hupward'⟩
      exact ⟨Fleet.orderly_step s.fleet fleet _ h.orderly hfleet, h.handles, t', u', pending,
        hupward'⟩
  | hear writes _ hmove =>
      refine ascending_proxy hjson values { s with toProxy := s.nextRead.2 } s' ?_ _ hmove hcond
      exact ⟨h.orderly, h.handles, t, u, pending,
        ⟨⟨hupward.server, hupward.stream, hupward.lease⟩, hupward.waiting, hupward.sent⟩⟩

/-! ### Runs -/

theorem ascending_connect (idleTtl : Duration) (fs : List FleetAction) (fleet : Fleet)
    (hfleet : run Fleet.step (Fleet.init idleTtl) fs = some fleet) (attach : CallId) (n : Nat)
    (messages : List EditorMessage) (hmessages : ∀ m ∈ messages, m.WellFormed fromSlice)
    (s : Tunnel)
    (h : connect fromSlice fleet attach n (messages.flatMap EditorMessage.encode) = some s) :
    Ascending fromSlice toString (messages.map EditorMessage.payload) s := by
  have horderly := Fleet.orderly_run idleTtl fs fleet hfleet
  rcases connect_cases fromSlice fleet attach n _ s h with
    ⟨lease, handle, t, t', hstep, ht, hnone, ht', hframes, hstream, _, hn, hproxy, hbytes, _⟩
  refine ⟨Fleet.orderly_step fleet s.fleet _ horderly hstep, ⟨[], [], ?_⟩, t',
    .connect lease.id t'.sharing.transport.outbound.subscribe, [], ⟨ht', ?_, ?_⟩, hbytes, ?_⟩
  · rw [hproxy]
    exact Proxy.handles_attached handle.initializeResult lease.id messages hmessages
  · rw [hn]
    exact hstream
  · rw [hproxy]
    rfl
  · -- no frame has been read under a number that was free
    have hnoframe : framesOf n t'.frames = [] := by
      rw [hframes, framesOf, List.map_eq_nil_iff, List.filter_eq_nil_iff]
      intro p hp hn
      exact (horderly.ordered s.server t ht).framed p hp (beq_iff_eq.mp hn ▸ hnone)
    rw [hproxy, hn, hnoframe]
    rfl

/-- The messages of the connection that the daemon has handed to the runtime. -/
theorem matching_upward (values : List Json) (s : Tunnel) (t : Server) (u : LeaseStream)
    (pending : List StreamFrame) (h : Ascending fromSlice toString values s)
    (hupward : Upward toString s t u pending) :
    t.sharing.matching s.n t.frames = (framesOf s.n t.frames).map StreamFrame.payload := by
  refine matching_framesOf t.sharing s.n u hupward.stream t.frames fun frame hframe => ?_
  rcases sent_fits values s h frame (hupward.sent ▸ List.mem_append_left _ hframe) with
    ⟨_, htype, hlease⟩
  simp [LeaseStream.forwards, htype, hlease, hupward.lease]

/-- Whatever pieces the editor's bytes arrive in, whatever other clients send, and whatever
    the registry and the server do meanwhile: of a connection the server reads, in order
    and once each, the messages of the editor before its exit notification that the proxy
    does not keep to itself. At any time it has read the first of them, and once the proxy
    has read everything and nothing is under way, all. No line of the stream may drop the
    future that reads the editor's bytes where this loses some, and no write to the server
    may have failed. -/
theorem editor_reaches_server (hcompact : Json.PrintsCompact toString)
    (hjson : ClosesStrings fromSlice) (idleTtl : Duration) (fs : List FleetAction) (fleet : Fleet)
    (hfleet : run Fleet.step (Fleet.init idleTtl) fs = some fleet) (attach : CallId) (n : Nat)
    (messages : List EditorMessage) (hmessages : ∀ m ∈ messages, m.WellFormed fromSlice)
    (start : Tunnel)
    (hstart : connect fromSlice fleet attach n (messages.flatMap EditorMessage.encode) =
      some start)
    (as : List TunnelAction) (s : Tunnel)
    (hrun : run (step fromSlice toString fromStr) start as = some s)
    (hback : SentBack toString fromStr s)
    (hdrop : Along (step fromSlice toString fromStr) (DropCond fromSlice fromStr) start as)
    (t : Server) (ht : s.fleet.servers.get? s.server = some t) (hwriter : t.writerFailed = false) :
    t.sharing.sentBy (.stream s.n) t.sharing.transport.received.reverse <+:
        forwardable (messages.map EditorMessage.payload) ∧
      (s.proxy.Finished → s.toDaemon = [] → t.drained →
        t.sharing.sentBy (.stream s.n) t.sharing.transport.received.reverse =
          forwardable (messages.map EditorMessage.payload)) := by
  -- The frames that are read back at the end were read back before.
  have hascending := run_invariant
    (I := fun u => SentBack toString fromStr u →
      Ascending fromSlice toString (messages.map EditorMessage.payload) u)
    (fun u a u' hu hstep hcond hback' => by
      have hbacku := sentBack_before u u' a hstep hback'
      exact upward_step hcompact hjson _ u u' a hstep hbacku hcond (hu hbacku))
    as start s hrun
    (fun _ => ascending_connect idleTtl fs fleet hfleet attach n messages hmessages start hstart)
    hdrop hback
  rcases hascending.upward with ⟨t', u, pending, hupward⟩
  have hsame := hupward.server
  rw [ht, Option.some.injEq] at hsame
  subst hsame
  rcases hascending.handles with ⟨handled, answers, hhandles⟩
  rcases Proxy.sent_forwardable _ s.proxy handled answers hhandles with ⟨hfirst, hall⟩
  have hordered := hascending.orderly.ordered s.server t ht
  -- What was queued of the connection is what the daemon has read of it.
  have hqueued : t.sharing.sentBy (.stream s.n) t.queued =
      (framesOf s.n t.frames).map StreamFrame.payload := by
    rw [hordered.streamed hwriter s.n, matching_upward _ s t u pending hascending hupward]
  have hsent : s.proxy.sent.map StreamFrame.payload =
      t.sharing.sentBy (.stream s.n) t.queued ++ pending.map StreamFrame.payload := by
    rw [hupward.sent, List.map_append, hqueued]
  -- And that is what the server has read of it, and what is still in the queue.
  have hpipe : t.sharing.sentBy (.stream s.n) t.queued =
      t.sharing.sentBy (.stream s.n) t.sharing.transport.received.reverse ++
        t.sharing.sentBy (.stream s.n)
          (t.sharing.transport.writer.hand ++ t.sharing.transport.inbound) := by
    rw [← Sharing.sentBy_append, ← List.append_assoc]
    exact congrArg _ (hordered.piped hwriter).symm
  constructor
  · refine List.IsPrefix.trans ?_ hfirst
    rw [hsent, hpipe, List.append_assoc]
    exact List.prefix_append _ _
  · intro hfinished hbytes hdrained
    have hempty := pending_nil pending (hupward.waiting ▸ hbytes)
    rw [← hall hfinished, hsent, hpipe, hempty, hdrained.1, hdrained.2]
    simp [Sharing.sentBy]

open Connection (plainText plain_compact)

/-- The daemon has spawned a session, and a lease on it is granted. -/
def leasedFleet : List FleetAction :=
  Fleet.attachAndNotify ++ [.world (.sect 2), .world (.sect 0)]

/-- The frame of a message of the editor. -/
def emptyFrame : StreamFrame := ⟨protocolVersion, .lspIn, "lease_1", 1, .arr []⟩

/-- What is read in the text of this frame, and in nothing else. -/
def readFrame (text : List Char) : Option Json :=
  [emptyFrame.toValue].find? fun value => plainText value = text

/-- The message arrives in two pieces; the frame is read, and the queue is drained. -/
def throughToServer : List TunnelAction :=
  [.editor (.arrive 10), .editor (.pollInput true), .editor (.arrive 13),
    .editor (.pollInput true), .readLine 4] ++
  (List.replicate 3 [.transport .writerTake, .transport .writerWrote]).flatten.map
    (fun a => .fleet (.server 0 a))

theorem throughToServer_ends : ∃ fleet start s t,
    run Fleet.step (Fleet.init 0) leasedFleet = some fleet ∧
      connect readEmptyArray fleet 0 3 ([Proxy.emptyArray].flatMap EditorMessage.encode) =
        some start ∧
      run (step readEmptyArray plainText readFrame) start throughToServer = some s ∧
      s.fleet.servers.get? s.server = some t ∧
      (∀ frame ∈ s.proxy.sent, readFrame (plainText frame.toValue) = some frame.toValue) ∧
      (s.proxy.pc = .running ∧ s.proxy.arrived = [] ∧ s.proxy.coming = []) ∧ s.toDaemon = [] ∧
      t.drained ∧ t.writerFailed = false := by
  have hall : ((run Fleet.step (Fleet.init 0) leasedFleet).bind fun fleet =>
      (connect readEmptyArray fleet 0 3 ([Proxy.emptyArray].flatMap EditorMessage.encode)).bind
        fun start => (run (step readEmptyArray plainText readFrame) start throughToServer).bind
          fun s => (s.fleet.servers.get? s.server).map fun t => decide (
            (∀ frame ∈ s.proxy.sent, readFrame (plainText frame.toValue) = some frame.toValue) ∧
            (s.proxy.pc = .running ∧ s.proxy.arrived = [] ∧ s.proxy.coming = []) ∧
            s.toDaemon = [] ∧ t.drained ∧ t.writerFailed = false)) = some true := by
    decide +kernel
  rcases Option.bind_eq_some_iff.mp hall with ⟨fleet, hfleet, hall⟩
  rcases Option.bind_eq_some_iff.mp hall with ⟨start, hstart, hall⟩
  rcases Option.bind_eq_some_iff.mp hall with ⟨s, hs, hall⟩
  rcases Option.map_eq_some_iff.mp hall with ⟨t, ht, hall⟩
  exact ⟨fleet, start, s, t, hfleet, hstart, hs, ht, of_decide_eq_true hall⟩

/-- The message has reached the server. -/
theorem editor_reaches_server_through : ∃ fleet start s t,
    connect readEmptyArray fleet 0 3 ([Proxy.emptyArray].flatMap EditorMessage.encode) =
        some start ∧
      run (step readEmptyArray plainText readFrame) start throughToServer = some s ∧
      s.fleet.servers.get? s.server = some t ∧
      t.sharing.sentBy (.stream s.n) t.sharing.transport.received.reverse = [.arr []] := by
  rcases throughToServer_ends with
    ⟨fleet, start, s, t, hfleet, hstart, hs, ht, hback, hfinished, hbytes, hdrained, hwriter⟩
  have hquiet : ∀ a ∈ throughToServer, ∀ u, DropCond readEmptyArray readFrame u a := by
    simp [throughToServer, DropCond]
  have hall := editor_reaches_server plain_compact Proxy.closesStrings_readEmptyArray 0 leasedFleet
    fleet hfleet 0 3 [Proxy.emptyArray] (by simp [Proxy.wellFormed_emptyArray]) start hstart
    throughToServer s hs hback (along_mono (fun u a ha => ha u) throughToServer start
      (along_of_forall throughToServer start hquiet)) t ht hwriter
  exact ⟨fleet, start, s, t, hstart, hs, ht, (hall.2 (.inl hfinished) hbytes hdrained).trans
    (by decide)⟩

end Tunnel

end Lspee
