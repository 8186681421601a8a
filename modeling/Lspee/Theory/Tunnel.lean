import Lspee.Core.Tunnel
import Lspee.Theory.Delivery
import Lspee.Theory.Forwarding
import Lspee.Theory.Interception
import Lspee.Theory.Sizes

/-!
# The Socket Between Proxy and Daemon

What the two directions of a `Tunnel` have in common.

What lies in the socket is a list of frames, written one after the other, each on a
line. A side that reads finds the first of them, and finds the end when there is none
(`nextLine_writeFrames`, `nextLine_empty`), as long as the text of a frame is read back
as the frame. So instead of bytes one may speak of the frames that are pending.

The daemon is a whole `Fleet`, of which the tunnel uses one server. A step of the
fleet is one of the users of this server, or it has nothing to do with the streams
of the server: `served_step`. A stream that is there stays there, and keeps its lease.

## Main definitions

* `Fleet.Served`: What a step of the fleet does to a server that is there.
* `Tunnel.Joined`: The daemon's end of the stream is there.
* `Tunnel.Goes`: What one step does.

## Theorems

* `StreamFrame.fromValue_toValue`: A frame is read back from its value.
* `frameOf_toString`, `nextLine_writeFrames`, `nextLine_empty`: What a side reads.
* `served_step`: A step of the fleet, seen from a server.
* `stream_kept`, `joined_fleet`: The stream stays.
* `connect_cases`, `goes_step`: How a tunnel begins, and goes on.
-/

namespace Lspee

open Transition Utf8

/-! ### Frames as lines -/

namespace StreamFrame

/-- A frame whose version fits is read back. -/
theorem fromValue_toValue (frame : StreamFrame) (h : frame.v < 2 ^ 32) :
    fromValue frame.toValue = some frame := by
  let typed : TypedFrame Json :=
    ⟨frame.v, frame.frameType, frame.leaseId, frame.seq, frame.payload⟩
  have hread : TypedFrame.fromValue some (typed.toValue id) = some typed :=
    TypedFrame.fromValue_toValue typed frame.payload h rfl
  unfold fromValue toValue
  rw [hread]
  rfl

end StreamFrame

namespace Tunnel

variable {toString : Json → List Char} {fromStr : List Char → Option Json}

/-- The text of a frame is read back as the frame's value. -/
def ReadBack (toString : Json → List Char) (fromStr : List Char → Option Json)
    (frame : StreamFrame) : Prop :=
  fromStr (toString frame.toValue) = some frame.toValue

theorem frameOf_toString (frame : StreamFrame) (hv : frame.v < 2 ^ 32)
    (hback : ReadBack toString fromStr frame) :
    frameOf fromStr (toString frame.toValue) = some frame := by
  unfold frameOf
  rw [hback, Option.bind_some, StreamFrame.fromValue_toValue frame hv]

/-- The first frame that is pending is read as a line. -/
theorem nextLine_writeFrames (hcompact : Json.PrintsCompact toString) (frame : StreamFrame)
    (pending : List StreamFrame) :
    nextLine (writeFrames toString (frame :: pending)) .eof =
      .line (toString frame.toValue) (writeFrames toString pending) :=
  nextLine_writeLine frame.toValue _ .eof (Json.oneLine_toString hcompact frame.toValue).1
    (Json.oneLine_toString hcompact frame.toValue).2

theorem nextLine_empty : nextLine (writeFrames toString []) .eof = .eof := rfl

/-- Nothing is in the socket if it has no bytes. -/
theorem pending_nil (pending : List StreamFrame) (h : writeFrames toString pending = []) :
    pending = [] := by
  cases pending with
  | nil => rfl
  | cons frame rest =>
      have hlength := congrArg List.length h
      rw [writeFrames, List.flatMap_cons, List.length_append, writeLine, List.length_append,
        List.length_singleton, List.length_nil] at hlength
      omega

theorem writeFrames_append (frames more : List StreamFrame) :
    writeFrames toString (frames ++ more) =
      writeFrames toString frames ++ writeFrames toString more :=
  List.flatMap_append

end Tunnel

/-! ### One server of the fleet -/

namespace Fleet

/-- What a step of the fleet does to a server that is there: it is a step of the
    server's users, or leaves its streams and its output alone. -/
inductive Served (server : CallId) (t : Server) (a : FleetAction) (t' : Server) : Prop where
  | act (b : SharingAction) (ha : a = .server server b) (hmay : t.mayMove b = true)
      (hstep : t.sharing.step b = some t'.sharing)
      (hframes : t'.frames = Server.noteFrame t.frames b)
  | aside (ha : ∀ b, a ≠ .server server b) (hframes : t'.frames = t.frames)
      (hstreams : ∀ n u, t.sharing.streams.get? n = some u →
        t'.sharing.streams.get? n = some u)
      (houtput : Transport.SameOutput t.sharing.transport t'.sharing.transport)

/-- A server that does not move. -/
theorem served_rest (server : CallId) (t : Server) (a : FleetAction)
    (ha : ∀ b, a ≠ .server server b) : Served server t a t :=
  .aside ha rfl (fun _ _ hu => hu) ⟨rfl, rfl, rfl, rfl⟩

/-- A request of the daemon, or of a control connection. -/
theorem served_begin (server : CallId) (t t' : Server) (a : FleetAction) (client : Option Nat)
    (call : CallId) (source : Owner) (request : Json) (h : Sharing)
    (ha : ∀ b, a ≠ .server server b) (hframes : t'.frames = t.frames) (hsharing : t'.sharing = h)
    (hstep : t.sharing.step (.begin client call source request) = some h) :
    Served server t a t' := by
  refine .aside ha hframes (fun n u hu => ?_) ?_
  · rw [hsharing]
    rcases Sharing.touches_step t.sharing h _ hstep n with hkeep | ⟨v, u', hv, hu', hacted⟩ |
      ⟨_, hconnect, _⟩
    · rw [hkeep, hu]
    · simp only [Sharing.step, Option.ite_none_right_eq_some, Option.map_eq_some_iff] at hstep
      rcases hstep with ⟨_, u₁, _, heq⟩
      rw [← heq]
      exact hu
    · exact absurd hconnect (by simp)
  · rw [hsharing]
    rcases Sharing.sameOutput_step t.sharing h _ hstep with ⟨b, hb, _⟩ | ⟨_, hsame⟩
    · exact absurd hb (by simp)
    · exact hsame

theorem served_moves (f : Fleet) (server : CallId) (t t' : Server) (a : FleetAction)
    (hmoves : f.Moves server t a t') : Served server t a t' := by
  cases hmoves with
  | callInitialize rootUri options h hboot hh =>
      exact served_begin server t _ _ none server .session _ h (by simp) rfl rfl hh
  | bootstrapped c request response hboot hcall hfresh =>
      exact .aside (by simp) rfl (fun _ _ hu => hu) ⟨rfl, rfl, rfl, rfl⟩
  | bootstrapFails c error hboot hcall =>
      exact .aside (by simp) rfl (fun _ _ hu => hu) ⟨rfl, rfl, rfl, rfl⟩
  | call n call id message key runtime h hframe howner hsent hh =>
      exact served_begin server t _ _ (some n) call .session message h (by simp) rfl rfl hh
  | connect attach n lease handle h h' hframe howner hh hh' =>
      rcases connect_keeps t.sharing h h' n lease.id hh hh' with ⟨_, htransport, hnone, hstreams⟩
      refine .aside (by simp) rfl (fun m u hu => ?_) ?_
      · -- the number of the new connection was free
        have hm : m ≠ n := by
          rintro rfl
          rw [hnone] at hu
          cases hu
        change h'.streams.get? m = some u
        rw [hstreams, Table.get?_set_ne _ _ _ _ hm, hu]
      · change Transport.SameOutput t.sharing.transport h'.transport
        rw [htransport]
        exact ⟨rfl, rfl, rfl, rfl⟩
  | daemonSends c message h howned hmessage hh =>
      rcases Sharing.send_cases t.sharing h none c .session message hh with ⟨_, heq | heq⟩ <;>
        rw [heq] <;>
        exact .aside (by simp) rfl (fun _ _ hu => hu) ⟨rfl, rfl, rfl, rfl⟩
  | act b h hmay hh => exact .act b rfl hmay hh rfl

/-- A server that is there stays there, and has moved by itself or not. -/
theorem served_step (f f' : Fleet) (a : FleetAction) (hstep : f.step a = some f')
    (server : CallId) (t : Server) (ht : f.servers.get? server = some t) :
    ∃ t', f'.servers.get? server = some t' ∧ Served server t a t' := by
  -- The action is about another server, or about none.
  have hother : ∀ (srv : CallId) (s s' : Server), srv ≠ server → f.Moves srv s a s' →
      ∀ b, a ≠ .server server b := by
    rintro srv s s' hne hmoves b rfl
    cases hmoves with
    | act => exact hne rfl
  cases step_effect f f' a hstep with
  | world | spawnFails | booted | bootFailed | request | returned | notifyFails =>
      exact ⟨t, ht, served_rest server t _ (by simp)⟩
  | spawn call key clientKind g hframe hfree =>
      have hne : server ≠ call := by
        rintro rfl
        rw [hfree] at ht
        cases ht
      refine ⟨t, ?_, served_rest server t _ (by simp)⟩
      rw [setServer, Table.get?_set_ne _ _ _ _ hne, ht]
  | server _ srv s s' hs hmoves =>
      by_cases hserver : server = srv
      · subst hserver
        rw [ht, Option.some.injEq] at hs
        subst hs
        exact ⟨s', Table.get?_set_self _ _ _, served_moves f server t s' a hmoves⟩
      · -- another server has moved
        refine ⟨t, ?_, served_rest server t a (hother srv s s' (Ne.symm hserver) hmoves)⟩
        rw [setServer, Table.get?_set_ne _ _ _ _ hserver, ht]
  | notified n call id message key runtime srv s w hframe howner hs hsent hfresh hw =>
      by_cases hserver : server = srv
      · subst hserver
        rw [ht, Option.some.injEq] at hs
        subst hs
        exact ⟨_, Table.get?_set_self _ _ _,
          .aside (by simp) rfl (fun _ _ hu => hu) ⟨rfl, rfl, rfl, rfl⟩⟩
      · refine ⟨t, ?_, served_rest server t _ (by simp)⟩
        rw [Table.get?_set_ne _ _ _ _ hserver, ht]

/-- A stream that is there stays there, and keeps its lease. -/
theorem stream_kept (server : CallId) (t t' : Server) (a : FleetAction)
    (h : Served server t a t') (n : Nat) (u : LeaseStream)
    (hu : t.sharing.streams.get? n = some u) :
    ∃ u', t'.sharing.streams.get? n = some u' ∧ u'.leaseId = u.leaseId := by
  cases h with
  | aside ha hframes hstreams houtput => exact ⟨u, hstreams n u hu, rfl⟩
  | act b ha hmay hstep hframes =>
      -- A stream that moves is put back with the lease it had.
      have hset : ∀ (k : Nat) (v v' : LeaseStream), t.sharing.streams.get? k = some v →
          v'.leaseId = v.leaseId → ∃ u', (t.sharing.streams.set k v').get? n = some u' ∧
            u'.leaseId = u.leaseId := by
        intro k v v' hv hlease
        by_cases hn : n = k
        · subst hn
          rw [hu, Option.some.injEq] at hv
          exact ⟨v', Table.get?_set_self _ _ _, by rw [hlease, hv]⟩
        · exact ⟨u, by rw [Table.get?_set_ne _ _ _ _ hn, hu], rfl⟩
      have hacts := act_cases t t'.sharing b hmay hstep
      generalize t'.sharing = h' at hacts
      cases hacts with
      | transport | readOver | accepted => exact ⟨u, hu, rfl⟩
      | failed k frame c v hv hreading hwriter => exact hset k v v.fail hv rfl
      | moved _ k v v' _ _ hv hmoved =>
          exact hset k v v' hv (LeaseStream.moved_keeps t.sharing.transport v v' hmoved).1

end Fleet

/-! ### The daemon's end -/

namespace Tunnel

/-- The daemon's end of the stream is there, and is for the lease of the proxy. -/
structure Joined (s : Tunnel) (t : Server) (u : LeaseStream) : Prop where
  server : s.fleet.servers.get? s.server = some t
  stream : t.sharing.streams.get? s.n = some u
  lease : u.leaseId = s.proxy.leaseId

theorem stream_of_joined (s : Tunnel) (t : Server) (u : LeaseStream) (h : s.Joined t u) :
    s.stream = some u := by
  unfold stream
  rw [h.server, Option.bind_some, h.stream]

/-- A step of the fleet leaves the daemon's end there. -/
theorem joined_fleet (s s' : Tunnel) (t : Server) (u : LeaseStream) (h : s.Joined t u)
    (a : FleetAction) (hstep : s.fleet.step a = some s'.fleet) (hserver : s'.server = s.server)
    (hn : s'.n = s.n) (hproxy : s'.proxy = s.proxy) :
    ∃ t' u', s'.Joined t' u' ∧ Fleet.Served s.server t a t' := by
  rcases Fleet.served_step s.fleet s'.fleet a hstep s.server t h.server with ⟨t', ht', hserved⟩
  rcases Fleet.stream_kept s.server t t' a hserved s.n u h.stream with ⟨u', hu', hlease⟩
  refine ⟨t', u', ⟨?_, ?_, ?_⟩, hserved⟩
  · rw [hserver, ht']
  · rw [hn, hu']
  · rw [hlease, h.lease, hproxy]

/-- What connecting does: the stream is there, with a receiver of its own, and the proxy
    has its lease. -/
theorem connect_cases (fromSlice : List UInt8 → Option Json) (fleet : Fleet) (attach : CallId)
    (n : Nat) (input : List UInt8) (s : Tunnel)
    (h : connect fromSlice fleet attach n input = some s) :
    ∃ (lease : Lease) (handle : SessionHandle) (t t' : Server),
      fleet.step (.connect attach n) = some s.fleet ∧
      fleet.servers.get? s.server = some t ∧ t.sharing.streams.get? n = none ∧
      s.fleet.servers.get? s.server = some t' ∧ t'.frames = t.frames ∧
      t'.sharing.streams.get? n =
        some (.connect lease.id t'.sharing.transport.outbound.subscribe) ∧
      s.spoken = t'.unread ∧ s.n = n ∧
      s.proxy = Proxy.attached fromSlice handle.initializeResult lease.id input ∧
      s.toDaemon = [] ∧ s.toProxy = [] := by
  unfold connect at h
  split at h
  · rename_i lease handle hframe
    split at h
    · rename_i server t fleet' howner hserver hstep
      rw [Option.some.injEq] at h
      rcases Fleet.serverOf_eq_some fleet handle.runtime t hserver with ⟨server', howner', ht⟩
      rw [howner, Option.some.injEq] at howner'
      rw [← howner'] at ht
      have hserved := hstep
      simp only [Fleet.step, hframe] at hserved
      rcases Fleet.onRuntime_eq_some fleet fleet' handle.runtime _ hserved with
        ⟨server'', v, t', howner'', hv, hconnect, hfleet⟩
      rw [howner, Option.some.injEq] at howner''
      rw [← howner''] at hv hfleet
      rw [ht, Option.some.injEq] at hv
      rw [← hv] at hconnect
      simp only [Server.connect] at hconnect
      split at hconnect
      · cases hconnect
      · rename_i h₁ hclone
        rcases Option.map_eq_some_iff.mp hconnect with ⟨h₂, hstream, ht'⟩
        rcases Fleet.connect_keeps t.sharing h₁ h₂ n lease.id hclone hstream with
          ⟨_, htransport, hnone, hstreams⟩
        refine ⟨lease, handle, t, t', ?_⟩
        rw [← h, ← ht']
        refine ⟨hstep, ht, hnone, ?_, rfl, ?_, ?_, rfl, rfl, rfl, rfl⟩
        · rw [hfleet, Fleet.setServer, Table.get?_set_self, ht']
        · change h₂.streams.get? n = some (.connect lease.id h₂.transport.outbound.subscribe)
          rw [hstreams, Table.get?_set_self, htransport]
        · change t.unread = h₂.transport.stdout.map fun m => m.content
          rw [htransport]
          rfl
    · cases h
  · cases h

/-! ### One step -/

section Steps

variable {fromSlice : List UInt8 → Option Json}
variable {toString : Json → List Char} {fromStr : List Char → Option Json}

/-- The daemon's end makes a step, and the socket has been seen to. -/
theorem onStream_step (s s' : Tunnel) (a : SharingAction) (h : s.onStream a = some s') :
    s.fleet.step (.server s.server a) = some s'.fleet ∧ s' = { s with fleet := s'.fleet } := by
  simp only [onStream, Option.map_eq_some_iff] at h
  rcases h with ⟨fleet, hfleet, hs'⟩
  rw [← hs']
  exact ⟨hfleet, rfl⟩

/-- What the daemon does when it reads a line: it hands on a frame, or ends. -/
theorem readLine_step (s s' : Tunnel) (call : CallId) (h : s.readLine fromStr call = some s') :
    ∃ a bytes, s.fleet.step (.server s.server a) = some s'.fleet ∧
      s' = { s with fleet := s'.fleet, toDaemon := bytes } ∧
      (∀ n, a ≠ .write n) ∧ ∀ b, a ≠ .transport b := by
  simp only [readLine, Option.ite_none_right_eq_some] at h
  have h := h.2
  split at h
  · rename_i text rest _
    split at h <;>
      rcases onStream_step _ s' _ h with ⟨hfleet, hs'⟩ <;>
      exact ⟨_, rest, hfleet, hs', by simp, by simp⟩
  · rcases onStream_step s s' _ h with ⟨hfleet, hs'⟩
    exact ⟨_, s.toDaemon, hfleet, hs', by simp, by simp⟩
  · rcases onStream_step s s' _ h with ⟨hfleet, hs'⟩
    exact ⟨_, s.toDaemon, hfleet, hs', by simp, by simp⟩

variable (fromSlice toString fromStr) in
/-- The ways a tunnel goes on. -/
inductive Goes (s : Tunnel) : TunnelAction → Tunnel → Prop where
  | fleet (a : FleetAction) (fleet : Fleet) (hmay : s.mayMove a = true)
      (hfleet : s.fleet.step a = some fleet) :
      Goes s (.fleet a) { s with fleet := fleet, spoken := s.spoken ++ s.emitted a }
  | editor (a : ProxyAction) (s' : Tunnel) (ha : ∀ next writes, a ≠ .streamReady next writes)
      (hmove : s.moveProxy fromSlice toString fromStr a = some s') : Goes s (.editor a) s'
  | hear (writes : Bool) (s' : Tunnel)
      (hmove : { s with toProxy := s.nextRead.2 }.moveProxy fromSlice toString fromStr
        (.streamReady s.nextRead.1 writes) = some s') : Goes s (.hear writes) s'
  | readLine (call : CallId) (s' : Tunnel) (hread : s.readLine fromStr call = some s') :
      Goes s (.readLine call) s'
  | write (frame : Tagged StreamFrame) (u : LeaseStream) (rest : List (Tagged StreamFrame))
      (fleet : Fleet) (hu : s.stream = some u) (hqueue : u.queue = frame :: rest)
      (hfleet : s.fleet.step (.server s.server (.write s.n)) = some fleet) :
      Goes s .write { s with
        fleet := fleet
        toProxy := s.toProxy ++ writeFrames toString [frame.content] }

theorem goes_step (s s' : Tunnel) (a : TunnelAction)
    (hstep : s.step fromSlice toString fromStr a = some s') :
    Goes fromSlice toString fromStr s a s' := by
  cases a with
  | fleet b =>
      simp only [step, Option.ite_none_right_eq_some, Option.map_eq_some_iff] at hstep
      rcases hstep with ⟨hmay, fleet, hfleet, hs'⟩
      rw [← hs']
      exact .fleet b fleet hmay hfleet
  | editor b =>
      cases b with
      | streamReady => exact absurd hstep (by simp [step])
      | _ => exact .editor _ s' (by simp) hstep
  | readLine call => exact .readLine call s' hstep
  | write =>
      simp only [step, write] at hstep
      split at hstep
      · cases hstep
      · rename_i frame hframe
        rcases Option.bind_eq_some_iff.mp hframe with ⟨u, hu, hhead⟩
        rcases List.head?_eq_some_iff.mp hhead with ⟨rest, hqueue⟩
        rcases onStream_step _ s' _ hstep with ⟨hfleet, hs'⟩
        rw [hs']
        exact .write frame u rest s'.fleet hu hqueue hfleet
  | hear writes =>
      simp only [step, hear, Option.ite_none_right_eq_some] at hstep
      exact .hear writes s' hstep.2

/-- Only a step of the proxy changes the proxy. -/
theorem proxy_step (s s' : Tunnel) (a : TunnelAction) (h : Goes fromSlice toString fromStr s a s') :
    s'.proxy = s.proxy ∨
      ∃ b, s.proxy.step fromSlice (frameOf fromStr) b = some s'.proxy := by
  have hmove : ∀ (u : Tunnel) (b : ProxyAction), u.proxy = s.proxy →
      u.moveProxy fromSlice toString fromStr b = some s' →
      s.proxy.step fromSlice (frameOf fromStr) b = some s'.proxy := by
    intro u b hu hb
    simp only [moveProxy, Option.map_eq_some_iff] at hb
    rcases hb with ⟨p, hp, hs'⟩
    rw [← hs', ← hu]
    exact hp
  cases h with
  | fleet => exact .inl rfl
  | editor b _ ha hb => exact .inr ⟨b, hmove s b rfl hb⟩
  | hear writes _ hb => exact .inr ⟨_, hmove { s with toProxy := s.nextRead.2 } _ rfl hb⟩
  | readLine call _ hread =>
      rcases readLine_step s s' call hread with ⟨_, _, _, hs', _⟩
      exact .inl (by rw [hs'])
  | write => exact .inl rfl

end Steps

end Tunnel

end Lspee
