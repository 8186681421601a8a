import Lspee.Theory.Linking

/-!
# What a Server Reads

The messages of many connections go through one queue to one server. A
connection's are read in the order it has sent them, each once, and nothing else
of it is read: of a control connection the requests that were accepted
(`Fleet.accepted`), of a stream the frames that match (`Sharing.matching`).

A message is queued under a name, and the session knows whose name it is, so
what a server was queued splits by party (`sentBy`). `Ordered` relates what was
queued to what the server reads and to the frames of the streams. `Forwards`
relates it to the requests of the control connections: a request is accepted in
the step that queues its message (`accepted_step`), and stays so whatever the
registry does next (`accepted_world`).

A writer task that has failed loses messages. One that has not ends only when
nobody can send any more.

## Main definitions

* `Sharing.sentBy`: The messages of one party.
* `Sharing.matching`: The payloads of the frames a stream forwards.
* `Ordered`: What was queued, what is read, and the frames of the streams.
* `CallPc.accepted`, `Frame.accepted`, `Fleet.accepted`: The requests that a
  server is to read.
* `Fleet.Forwards`: The requests were queued in order.
* `Server.drained`: Nothing waits to be written.

## Theorems

* `ordered_moves`, `ordered_step`: Every step keeps `Ordered`.
* `accepted_world`, `accepted_answer`: What the registry makes of a request.
* `forwards_step`, `orderly_run`: Every run keeps `Forwards`.
* `forwarded_in_order`: What the servers read.
-/

namespace Lspee

open Transition

/-! ### The messages of one party -/

/-- A frame that is forwarded to the server. -/
def LeaseStream.forwards (u : LeaseStream) (frame : StreamFrame) : Bool :=
  frame.leaseId == u.leaseId && frame.frameType == .lspIn

namespace Sharing

/-- The messages of one party. -/
def sentBy (h : Sharing) (party : Party) (ms : List (Tagged Json)) : List Json :=
  (ms.filter fun m => m.caller.bind h.requests.get? == some party).map Tagged.content

/-- The payloads of the frames a stream forwards. -/
def matching (h : Sharing) (n : Nat) (frames : List (Nat × StreamFrame)) : List Json :=
  match h.streams.get? n with
  | none => []
  | some u => (frames.filter fun p => p.1 == n && u.forwards p.2).map fun p => p.2.payload

theorem sentBy_append (h : Sharing) (party : Party) (ms ms' : List (Tagged Json)) :
    h.sentBy party (ms ++ ms') = h.sentBy party ms ++ h.sentBy party ms' := by
  rw [sentBy, List.filter_append, List.map_append]
  rfl

theorem sentBy_singleton (h : Sharing) (party party' : Party) (c : CallId) (message : Json)
    (hparty : h.requests.get? c = some party') :
    h.sentBy party [⟨some c, message⟩] = if party' = party then [message] else [] := by
  by_cases heq : party' = party
  · simp [sentBy, hparty, heq]
  · simp [sentBy, hparty, heq]

/-- Messages that have a name keep their party when a new name is given. -/
theorem sentBy_named (h h' : Sharing) (party : Party) (ms : List (Tagged Json))
    (hnamed : ∀ m ∈ ms, ∃ c p, m.caller = some c ∧ h.requests.get? c = some p)
    (hrequests : ∀ c p, h.requests.get? c = some p → h'.requests.get? c = some p) :
    h'.sentBy party ms = h.sentBy party ms := by
  rw [sentBy, sentBy]
  refine congrArg _ (List.filter_congr fun m hm => ?_)
  rcases hnamed m hm with ⟨c, p, hc, hp⟩
  rw [hc, Option.bind_some, Option.bind_some, hp, hrequests c p hp]

theorem matching_append (h : Sharing) (n k : Nat) (u : LeaseStream)
    (hu : h.streams.get? k = some u) (frames : List (Nat × StreamFrame)) (frame : StreamFrame) :
    h.matching n (frames ++ [(k, frame)]) = h.matching n frames ++
      if k = n ∧ u.forwards frame = true then [frame.payload] else [] := by
  by_cases hk : k = n
  · rw [hk] at hu ⊢
    by_cases hforwards : u.forwards frame = true
    · simp [matching, hu, hforwards]
    · simp [matching, hu, hforwards]
  · cases hn : h.streams.get? n with
    | none => simp [matching, hn, hk]
    | some v => simp [matching, hn, hk]

/-- A stream that goes on forwards the same frames. -/
theorem matching_set (h : Sharing) (k : Nat) (u u' : LeaseStream)
    (hu : h.streams.get? k = some u) (hlease : u'.leaseId = u.leaseId) (n : Nat)
    (frames : List (Nat × StreamFrame)) :
    matching { h with streams := h.streams.set k u' } n frames = h.matching n frames := by
  by_cases hn : n = k
  · rw [hn]
    simp only [matching, Table.get?_set_self, hu, LeaseStream.forwards, hlease]
  · simp only [matching, Table.get?_set_ne _ _ _ _ hn]

end Sharing

namespace LeaseStream

/-- A step of a stream leaves its lease as it is, and reads no more than
    before. -/
theorem moved_keeps (t : Transport) (u u' : LeaseStream) (h : Moved t u u') :
    u'.leaseId = u.leaseId ∧ (u'.reading = true → u.reading = true) := by
  cases h with
  | take u' h =>
      rcases (take_cases u u' _ _ h).2.2 with ⟨_, heq⟩ | ⟨_, _, _, _, heq⟩ | ⟨_, heq⟩ <;>
        rw [heq] <;>
        exact ⟨rfl, id⟩
  | push u' h =>
      unfold push at h
      split at h
      · split at h
        · rw [← Option.some.inj h]
          exact ⟨rfl, id⟩
        · rw [Option.ite_none_right_eq_some, Option.some.injEq] at h
          rw [← h.2]
          exact ⟨rfl, id⟩
      · exact absurd h (by simp)
  | event payload u' h =>
      simp only [event, Option.ite_none_right_eq_some, Option.some.injEq] at h
      rw [← h.2]
      exact ⟨rfl, id⟩
  | write u' h =>
      unfold write at h
      split at h
      · rw [← Option.some.inj h]
        exact ⟨rfl, id⟩
      · exact absurd h (by simp)
  | eventEnds => exact ⟨rfl, id⟩
  | writerEnds => exact ⟨rfl, id⟩
  | fail => exact ⟨rfl, fun hreading => absurd hreading (by simp [LeaseStream.fail])⟩
  | eof => exact ⟨rfl, fun hreading => absurd hreading (by simp [LeaseStream.eof])⟩

end LeaseStream

/-! ### What was queued and what is read -/

/-- What was queued to a server, what it reads, and what its streams' clients
    have sent. -/
structure Ordered (h : Sharing) (queued : List (Tagged Json)) (frames : List (Nat × StreamFrame))
    (failed : Bool) : Prop where
  named : ∀ m ∈ queued, ∃ c party, m.caller = some c ∧ h.requests.get? c = some party
  called : ∀ c call, h.transport.calls.get? c = some call →
    ∃ party, h.requests.get? c = some party ∧ ∀ n, party ≠ .stream n
  piped : failed = false → h.transport.pipe = queued
  stopped : h.transport.writer = .stopped → failed = true ∨ h.transport.handles = []
  held : ∀ n u, h.streams.get? n = some u → u.reading = true → .task n ∈ h.transport.handles
  framed : ∀ p ∈ frames, h.streams.get? p.1 ≠ none
  streamed : failed = false → ∀ n, h.sentBy (.stream n) queued = h.matching n frames

theorem ordered_init : Ordered Sharing.init [] [] false where
  named := by simp
  called := by simp [Sharing.init, Transport.spawn]
  piped := fun _ => rfl
  stopped := by simp [Sharing.init, Transport.spawn]
  held := by simp [Sharing.init]
  framed := by simp
  streamed := fun _ n => rfl

/-- A new name leaves the others alone. -/
theorem requests_set (h : Sharing) (c : CallId) (party : Party) (hfresh : h.fresh c = true)
    (d : CallId) (p : Party) (hd : h.requests.get? d = some p) :
    (h.requests.set c party).get? d = some p := by
  have hne : d ≠ c := fun hc => by
    rw [← hc, Sharing.fresh_iff] at hfresh
    rw [hfresh.1] at hd
    exact absurd hd (by simp)
  rw [Table.get?_set_ne _ _ _ _ hne, hd]

/-- A call begins. -/
theorem ordered_begin (h h' : Sharing) (queued : List (Tagged Json))
    (frames : List (Nat × StreamFrame)) (failed : Bool) (ho : Ordered h queued frames failed)
    (client : Option Nat) (call : CallId) (source : Owner) (request : Json)
    (hstep : h.step (.begin client call source request) = some h') :
    Ordered h' (queued ++ h.transport.queuedBy h'.transport) frames failed := by
  rw [queuedBy_begin h h' client call source request hstep, List.append_nil]
  rcases begin_eq_some h h' client call source request hstep with
    ⟨hfresh, t, pc, hbegin, hh', ht, _⟩
  have hkept := requests_set h call (Sharing.caller client) hfresh
  rw [hh']
  refine ⟨?_, ?_, ?_, ?_, ?_, ho.framed, ?_⟩
  · intro m hm
    rcases ho.named m hm with ⟨c, party, hc, hparty⟩
    exact ⟨c, party, hc, hkept c party hparty⟩
  · intro c call' hcall
    rw [ht, Transport.setPc_calls] at hcall
    rcases (Table.get?_set_eq_some _ _ _ _ _).mp hcall with ⟨hc, _⟩ | ⟨_, hold⟩
    · rw [hc]
      refine ⟨Sharing.caller client, Table.get?_set_self _ _ _, fun n => ?_⟩
      cases client <;> simp [Sharing.caller]
    · rcases ho.called c call' hold with ⟨party, hparty, hne⟩
      exact ⟨party, hkept c party hparty, hne⟩
  · intro hfailed
    rw [← ho.piped hfailed, ht]
    rfl
  · intro hwriter
    rw [ht] at hwriter
    rcases ho.stopped hwriter with hfailed | hgone
    · exact Or.inl hfailed
    · exact Or.inr (Transport.handles_gone h.transport t _ hbegin hgone)
  · intro n u hu hreading
    exact Transport.handle_stays h.transport t _ hbegin _ (ho.held n u hu hreading) (by simp)
  · intro hfailed n
    rw [Sharing.sentBy_named h _ _ queued ho.named hkept]
    exact ho.streamed hfailed n

/-- A message is queued under a new name. If it is a stream's, it comes with a
    frame. -/
theorem ordered_accept (h : Sharing) (queued : List (Tagged Json))
    (frames frames' : List (Nat × StreamFrame)) (failed : Bool)
    (ho : Ordered h queued frames failed)
    (c : CallId) (party : Party) (message : Json) (hfresh : h.fresh c = true)
    (hframed : ∀ p ∈ frames', h.streams.get? p.1 ≠ none)
    (hmatching : ∀ n, h.matching n frames' =
      h.matching n frames ++ if party = .stream n then [message] else []) :
    Ordered (h.accept c party message)
      (queued ++ h.transport.queuedBy (h.accept c party message).transport) frames' failed := by
  rw [Sharing.queuedBy_accept]
  have hkept := requests_set h c party hfresh
  refine ⟨?_, ?_, ?_, ho.stopped, ho.held, hframed, ?_⟩
  · intro m hm
    rcases List.mem_append.mp hm with hm | hm
    · rcases ho.named m hm with ⟨d, p, hd, hp⟩
      exact ⟨d, p, hd, hkept d p hp⟩
    · rw [List.mem_singleton.mp hm]
      exact ⟨c, party, rfl, Table.get?_set_self _ _ _⟩
  · intro d call hcall
    rcases ho.called d call hcall with ⟨p, hp, hne⟩
    exact ⟨p, hkept d p hp, hne⟩
  · intro hfailed
    rw [← ho.piped hfailed]
    simp only [Transport.pipe, Sharing.accept, List.append_assoc]
  · intro hfailed n
    have hself : (h.accept c party message).requests.get? c = some party :=
      Table.get?_set_self _ _ _
    rw [Sharing.sentBy_append, Sharing.sentBy_named h _ _ queued ho.named hkept,
      ho.streamed hfailed n, Sharing.sentBy_singleton _ _ party c message hself]
    exact (hmatching n).symm

/-- The transport goes on. -/
theorem ordered_transport (h : Sharing) (queued : List (Tagged Json))
    (frames : List (Nat × StreamFrame)) (failed : Bool) (ho : Ordered h queued frames failed)
    (b : TransportAction) (t : Transport) (hstep : h.transport.step b = some t)
    (hmay : h.mayMove b = true) (hbegin : ∀ c source request, b ≠ .begin c source request)
    (hforward : ∀ owner message, b ≠ .forward owner message) :
    Ordered { h with transport := t } (queued ++ h.transport.queuedBy t) frames
      (failed || Server.isWriterFailed (.transport b)) := by
  -- What is queued is a call's, and no stream's.
  have hqueued : h.transport.queuedBy t = [] ∨ ∃ c request party,
      h.transport.queuedBy t = [⟨some c, request⟩] ∧ h.requests.get? c = some party ∧
        ∀ n, party ≠ .stream n := by
    rcases Transport.queuedBy_step h.transport t b hstep with
      hnone | ⟨c, request, rx, _, hcall, hone⟩ | ⟨owner, message, hb⟩
    · exact Or.inl hnone
    · rcases ho.called c _ hcall with ⟨party, hparty, hne⟩
      exact Or.inr ⟨c, request, party, hone, hparty, hne⟩
    · exact absurd hb (hforward owner message)
  have hfailed' : (failed || Server.isWriterFailed (.transport b)) = false →
      failed = false ∧ ∀ delivered, b ≠ .writerFailed delivered := by
    intro hnot
    rw [Bool.or_eq_false_iff] at hnot
    refine ⟨hnot.1, fun delivered hb => ?_⟩
    rw [hb] at hnot
    exact absurd hnot.2 (by simp [Server.isWriterFailed])
  refine ⟨?_, ?_, ?_, ?_, ?_, ho.framed, ?_⟩
  · intro m hm
    rcases List.mem_append.mp hm with hm | hm
    · exact ho.named m hm
    · rcases hqueued with hnone | ⟨c, request, party, hone, hparty, _⟩
      · rw [hnone] at hm
        exact absurd hm List.not_mem_nil
      · rw [hone, List.mem_singleton] at hm
        rw [hm]
        exact ⟨c, party, rfl, hparty⟩
  · rintro c ⟨request, pc⟩ hcall'
    cases hcall : h.transport.calls.get? c with
    | none =>
        rw [Transport.call_begun h.transport t b hstep c hcall (hbegin c)] at hcall'
        exact absurd hcall' (by simp)
    | some call => exact ho.called c call hcall
  · intro hnot
    rcases hfailed' hnot with ⟨hnot, hb⟩
    rw [Transport.pipe_step h.transport t b hstep hb, ho.piped hnot]
  · intro hwriter
    rcases Transport.stopped_step h.transport t b hstep hwriter with hold | ⟨delivered, hb⟩ | hgone
    · rcases ho.stopped hold with hfailed | hgone
      · exact Or.inl (by rw [hfailed, Bool.true_or])
      · exact Or.inr (Transport.handles_gone h.transport t b hstep hgone)
    · exact Or.inl (by rw [hb, Server.isWriterFailed, Bool.or_true])
    · exact Or.inr (Transport.handles_gone h.transport t b hstep hgone)
  · intro n u hu hreading
    refine Transport.handle_stays h.transport t b hstep _ (ho.held n u hu hreading) fun hb => ?_
    rw [hb, Sharing.mayMove, hu, Option.all_some, hreading] at hmay
    exact absurd hmay (by simp)
  · intro hnot n
    have hold := ho.streamed (hfailed' hnot).1 n
    have hsame : ∀ ms, Sharing.sentBy { h with transport := t } (.stream n) ms =
        h.sentBy (.stream n) ms := fun ms => rfl
    have hmatching : Sharing.matching { h with transport := t } n frames =
        h.matching n frames := rfl
    rw [hsame, Sharing.sentBy_append, hold, hmatching]
    rcases hqueued with hnone | ⟨c, request, party, hone, hparty, hne⟩
    · rw [hnone]
      exact List.append_nil _
    · rw [hone, Sharing.sentBy_singleton _ _ party c request hparty, if_neg (hne n),
        List.append_nil]

/-- A stream goes on, and its frames with it. -/
theorem ordered_stream (h : Sharing) (queued : List (Tagged Json))
    (frames frames' : List (Nat × StreamFrame)) (failed : Bool)
    (ho : Ordered h queued frames failed)
    (k : Nat) (u u' : LeaseStream) (hu : h.streams.get? k = some u)
    (hlease : u'.leaseId = u.leaseId) (hreading : u'.reading = true → u.reading = true)
    (hframed : ∀ p ∈ frames', h.streams.get? p.1 ≠ none)
    (hmatching : failed = false → ∀ n, h.matching n frames' = h.matching n frames) :
    Ordered { h with streams := h.streams.set k u' } queued frames' failed where
  named := ho.named
  called := ho.called
  piped := ho.piped
  stopped := ho.stopped
  held := by
    intro n v hv hreads
    rcases (Table.get?_set_eq_some _ _ _ _ _).mp hv with ⟨hn, heq⟩ | ⟨_, hold⟩
    · rw [← heq] at hreads
      rw [hn]
      exact ho.held k u hu (hreading hreads)
    · exact ho.held n v hold hreads
  framed := by
    intro p hp hnone
    refine hframed p hp ?_
    by_cases hk : p.1 = k
    · rw [hk, Table.get?_set_self] at hnone
      exact absurd hnone (by simp)
    · rw [Table.get?_set_ne _ _ _ _ hk] at hnone
      exact hnone
  streamed := by
    intro hnot n
    rw [Sharing.matching_set h k u u' hu hlease, hmatching hnot n]
    exact ho.streamed hnot n

/-- A client connects, and has sent no frame yet. -/
theorem ordered_connect (h h' : Sharing) (queued : List (Tagged Json))
    (frames : List (Nat × StreamFrame)) (failed : Bool) (ho : Ordered h queued frames failed)
    (k : Nat) (leaseId : String) (hrequests : h'.requests = h.requests)
    (htransport : h'.transport =
      { h.transport with handles := .task k :: h.transport.handles })
    (hnone : h.streams.get? k = none)
    (hstreams : h'.streams = h.streams.set k (.connect leaseId h.transport.outbound.subscribe))
    (hhandles : h.transport.handles ≠ []) :
    Ordered h' (queued ++ h.transport.queuedBy h'.transport) frames failed := by
  have hqueued : h.transport.queuedBy h'.transport = [] :=
    Transport.queuedBy_same _ _ (by rw [htransport])
  rw [hqueued, List.append_nil]
  refine ⟨?_, ?_, ?_, ?_, ?_, ?_, ?_⟩
  · rw [hrequests]
    exact ho.named
  · rw [hrequests, htransport]
    exact ho.called
  · rw [htransport]
    exact ho.piped
  · intro hwriter
    rw [htransport] at hwriter
    exact Or.inl ((ho.stopped hwriter).resolve_right hhandles)
  · intro n u hu hreading
    rw [htransport]
    rw [hstreams] at hu
    rcases (Table.get?_set_eq_some _ _ _ _ _).mp hu with ⟨hn, _⟩ | ⟨_, hold⟩
    · rw [hn]
      exact List.mem_cons_self
    · exact List.mem_cons_of_mem _ (ho.held n u hold hreading)
  · intro p hp
    rw [hstreams]
    have hne : p.1 ≠ k := fun heq => ho.framed p hp (by rw [heq, hnone])
    rw [Table.get?_set_ne _ _ _ _ hne]
    exact ho.framed p hp
  · intro hnot n
    have hold := ho.streamed hnot n
    rw [Sharing.sentBy, hrequests]
    refine hold.trans ?_
    by_cases hn : n = k
    · -- a new stream has no frames
      have hempty : frames.filter (fun p => p.1 == k &&
          (LeaseStream.connect leaseId h.transport.outbound.subscribe).forwards p.2) = [] := by
        rw [List.filter_eq_nil_iff]
        intro p hp hk
        rw [Bool.and_eq_true, beq_iff_eq] at hk
        exact ho.framed p hp (by rw [hk.1, hnone])
      simp only [Sharing.matching, hn, hstreams, Table.get?_set_self, hnone, hempty, List.map_nil]
    · simp only [Sharing.matching, hstreams, Table.get?_set_ne _ _ _ _ hn]

theorem noteFrame_other (frames : List (Nat × StreamFrame)) (a : SharingAction)
    (ha : ∀ n frame c, a ≠ .frame n frame c) : Server.noteFrame frames a = frames := by
  cases a with
  | frame n frame c => exact absurd rfl (ha n frame c)
  | _ => rfl

theorem isWriterFailed_other (a : SharingAction) (ha : ∀ b, a ≠ .transport b) :
    Server.isWriterFailed a = false := by
  cases a with
  | transport b => exact absurd rfl (ha b)
  | _ => rfl

/-- The users of a server go on. -/
theorem ordered_act (s : Server) (h' : Sharing) (a : SharingAction) (hmay : s.mayMove a = true)
    (hstep : s.sharing.step a = some h')
    (ho : Ordered s.sharing s.queued s.frames s.writerFailed) :
    Ordered h' (s.queued ++ s.sharing.transport.queuedBy h'.transport)
      (Server.noteFrame s.frames a) (s.writerFailed || Server.isWriterFailed a) := by
  have hframed : ∀ n frame u, s.sharing.streams.get? n = some u →
      ∀ p ∈ s.frames ++ [(n, frame)], s.sharing.streams.get? p.1 ≠ none := by
    intro n frame u hu p hp
    rcases List.mem_append.mp hp with hp | hp
    · exact ho.framed p hp
    · rw [List.mem_singleton.mp hp, hu]
      simp
  have hsame : ∀ t : Transport, s.queued ++ t.queuedBy t = s.queued := fun t => by
    rw [Transport.queuedBy_same t t rfl, List.append_nil]
  cases Fleet.act_cases s h' a hmay hstep with
  | transport b t ht hbegin hforward =>
      rw [noteFrame_other s.frames _ (by simp)]
      simp only [Sharing.step, Option.ite_none_right_eq_some] at hstep
      exact ordered_transport s.sharing s.queued s.frames s.writerFailed ho b t ht hstep.1 hbegin
        hforward
  | readOver n frame c u hu hother =>
      rw [hsame, isWriterFailed_other _ (by simp), Bool.or_false]
      have hnot : u.forwards frame = false := by
        rcases hother with hlease | htype
        · simp [LeaseStream.forwards, hlease]
        · simp [LeaseStream.forwards, htype]
      refine ⟨ho.named, ho.called, ho.piped, ho.stopped, ho.held, hframed n frame u hu, ?_⟩
      intro hfailed m
      rw [Server.noteFrame, Sharing.matching_append _ _ _ u hu, hnot]
      simpa using ho.streamed hfailed m
  | failed n frame c u hu hreading hwriter =>
      rw [isWriterFailed_other _ (by simp), Bool.or_false]
      -- A client that is read holds a handle, so a write has failed.
      have hfailed : s.writerFailed = true := by
        rcases ho.stopped hwriter with hfailed | hgone
        · exact hfailed
        · have hheld := ho.held n u hu hreading
          rw [hgone] at hheld
          exact absurd hheld List.not_mem_nil
      rw [hsame]
      exact ordered_stream s.sharing s.queued s.frames _ s.writerFailed ho n u u.fail hu rfl
        (fun hreads => absurd hreads (by simp [LeaseStream.fail])) (hframed n frame u hu)
        (fun hnot => by rw [hfailed] at hnot; exact absurd hnot (by simp))
  | accepted n frame c u hu hlease htype hfresh =>
      rw [isWriterFailed_other _ (by simp), Bool.or_false]
      have hforwards : u.forwards frame = true := by simp [LeaseStream.forwards, hlease, htype]
      refine ordered_accept s.sharing s.queued s.frames _ s.writerFailed ho c (.stream n)
        frame.payload hfresh (hframed n frame u hu) fun m => ?_
      rw [Server.noteFrame, Sharing.matching_append _ _ _ u hu, hforwards]
      simp
  | moved _ n u u' ha hframe hu hmoved =>
      rcases LeaseStream.moved_keeps s.sharing.transport u u' hmoved with ⟨hlease, hreading⟩
      rw [noteFrame_other s.frames a hframe, isWriterFailed_other a ha, Bool.or_false, hsame]
      exact ordered_stream s.sharing s.queued s.frames s.frames s.writerFailed ho n u u' hu hlease
        hreading ho.framed (fun _ _ => rfl)

/-- A message that is no stream's is queued. -/
theorem ordered_queued (s : Server) (ho : Ordered s.sharing s.queued s.frames s.writerFailed)
    (c : CallId) (party : Party) (message : Json) (hfresh : s.sharing.fresh c = true)
    (hparty : ∀ n, party ≠ .stream n) :
    Ordered (s.sharing.accept c party message)
      (s.queued ++ s.sharing.transport.queuedBy (s.sharing.accept c party message).transport)
      s.frames s.writerFailed := by
  refine ordered_accept s.sharing s.queued s.frames s.frames s.writerFailed ho c party message
    hfresh ho.framed fun n => ?_
  rw [if_neg (hparty n), List.append_nil]

namespace Fleet

theorem ordered_moves (f : Fleet) (server : CallId) (s s' : Server) (a : FleetAction)
    (hmoves : f.Moves server s a s') (ho : Ordered s.sharing s.queued s.frames s.writerFailed) :
    Ordered s'.sharing s'.queued s'.frames s'.writerFailed := by
  cases hmoves with
  | callInitialize rootUri options h hboot hh =>
      exact ordered_begin s.sharing h s.queued s.frames s.writerFailed ho none server .session _ hh
  | bootstrapped c request response hboot hcall hfresh =>
      exact ordered_queued s ho c .daemon initializedNotification hfresh (by simp)
  | bootstrapFails c error hboot hcall => exact ho
  | call n call id message key runtime h hframe howner hsent hh =>
      exact ordered_begin s.sharing h s.queued s.frames s.writerFailed ho (some n) call .session
        message hh
  | connect attach n lease handle h₁ h₂ hframe howner hh hh' =>
      rcases connect_keeps s.sharing h₁ h₂ n lease.id hh hh' with
        ⟨hrequests, htransport, hnone, hstreams⟩
      refine ordered_connect s.sharing h₂ s.queued s.frames s.writerFailed ho n lease.id hrequests
        htransport hnone hstreams fun hgone => ?_
      -- The handle is cloned from one that is there.
      simp only [Sharing.step, Transport.step, Option.ite_none_right_eq_some, hgone,
        List.not_mem_nil, false_and, if_false, Option.map_none, reduceCtorEq, and_false] at hh
  | daemonSends c message h howned hmessage hh =>
      rcases Sharing.send_cases s.sharing h none c .session message hh with ⟨hfresh, heq | heq⟩
      · rw [heq]
        have hsame : s.queued ++ s.sharing.transport.queuedBy s.sharing.transport = s.queued := by
          rw [Transport.queuedBy_same _ _ rfl, List.append_nil]
        rw [← hsame] at ho
        exact ho
      · rw [heq]
        exact ordered_queued s ho c .daemon message hfresh (by simp)
  | act b h hmay hh => exact ordered_act s h b hmay hh ho

theorem ordered_step (f f' : Fleet) (a : FleetAction)
    (h : ∀ server s, f.servers.get? server = some s →
      Ordered s.sharing s.queued s.frames s.writerFailed) (hstep : f.step a = some f')
    (server : CallId) (s' : Server) (hs' : f'.servers.get? server = some s') :
    Ordered s'.sharing s'.queued s'.frames s'.writerFailed := by
  rcases server_step f f' a hstep server s' hs' with
    ⟨_, hnew⟩ | hold | ⟨s, hs, hmoves | hnotifies⟩
  · rw [hnew]
    exact ordered_init
  · exact h server s' hold
  · exact ordered_moves f server s s' a hmoves (h server s hs)
  · cases hnotifies with
    | notified n call id message key runtime hframe howner hsent hfresh =>
        exact ordered_queued s (h server s hs) call (.control n) message hfresh (by simp)

end Fleet

/-! ### The requests that a server is to read -/

/-- The call has queued its request. If it has failed, then while it waited for
    the response. -/
def CallPc.accepted : CallPc → Bool
  | .sending _ => false
  | .receiving _ => true
  | .returned (.ok _) => true
  | .returned (.error error) => error == Transport.recvError

/-- A request that the runtime has taken: it is answered, or about to be, or has
    failed or still waits for the response. -/
def Frame.accepted (t : Transport) (call : CallId) : Frame → Bool
  | .forward .call _ _ (.awaiting _ _) => (t.calls.get? call).any fun c => c.pc.accepted
  | .forward _ _ _ (.touch _ _) => true
  | .forward _ _ _ (.returned (.ok response)) => response.isSome
  | .forward _ _ _ (.returned (.error error)) => error == Transport.recvError
  | _ => false

namespace Fleet

/-- The request went to the server, and its transport has taken it. -/
def accepted (f : Fleet) (server : CallId) (t : Transport) (request : ControlRequest) : Bool :=
  f.wentTo server request.call &&
    (f.world.calls.get? request.call).any (Frame.accepted t request.call)

/-- What was queued to a server of a control connection are the requests the
    server is to read, in order. -/
def Forwards (f : Fleet) (server : CallId) (s : Server) : Prop :=
  ∀ n, s.sharing.sentBy (.control n) s.queued =
    ((f.history n).filter (f.accepted server s.sharing.transport)).map ControlRequest.message

theorem accepted_eq (f : Fleet) (server : CallId) (t : Transport) (request : ControlRequest)
    (frame : Frame) (hget : f.world.calls.get? request.call = some frame) :
    f.accepted server t request =
      (f.wentTo server request.call && frame.accepted t request.call) := by
  rw [accepted, hget, Option.any_some]

theorem wentTo_eq_false (f : Fleet) (server call : CallId)
    (h : routedTo call f.world.log = []) : f.wentTo server call = false := by
  rw [wentTo, h]
  rfl

/-- A request that has found its session has gone to the server of one
    runtime. -/
theorem wentTo_after (f : Fleet) (htracked : Tracked f.history f.world) (n : Nat)
    (request : ControlRequest) (hmem : request ∈ f.history n) (kind : ForwardKind) (id : String)
    (message : Json) (key : SessionKey) (runtime : RuntimeId)
    (hget : f.world.calls.get? request.call =
      some (.forward kind id message (.awaiting key runtime)))
    (owner : CallId) (howner : f.owners.get? runtime = some owner) (server : CallId) :
    f.wentTo server request.call = (owner == server) := by
  have hrouted := htracked.after n request hmem kind id message key runtime hget
  rw [wentTo, hrouted, List.any_cons, List.any_nil, Bool.or_false, howner]
  rfl

/-- The registry answers nothing to the request, and so it is accepted as it
    was. -/
theorem accepted_world (f : Fleet) (htracked : Tracked f.history f.world) (w : World) (b : Action)
    (hw : f.world.step b = some w) (server : CallId) (h : Sharing) (hlinked : Linked f server h)
    (n : Nat) (request : ControlRequest) (hmem : request ∈ f.history n)
    (hb : ∀ result, b ≠ .runtimeReturns request.call result) :
    accepted { f with world := w } server h.transport request =
      f.accepted server h.transport request := by
  rcases htracked.begun n request hmem with ⟨kind, id, pc, hget⟩
  rcases routed_step f.world w b hw _ kind id _ pc hget with
    ⟨hsame, hrouted⟩ | ⟨events, pc', hnew, hadvances, hrouted⟩
  · rw [accepted_eq f server _ request _ hget, accepted_eq _ server _ request _ hsame, wentTo,
      hrouted]
    rfl
  · rw [accepted_eq f server _ request _ hget, accepted_eq _ server _ request _ hnew]
    have hwent : routedTo request.call events = [] →
        wentTo { f with world := w } server request.call = f.wentTo server request.call := by
      intro hnone
      rw [wentTo, hrouted, hnone]
      rfl
    cases hadvances with
    | leased key =>
        rw [hwent rfl]
        cases kind <;> rfl
    | unknown =>
        rw [hwent rfl]
        cases kind <;> rfl
    | missing key =>
        rw [hwent rfl]
        cases kind <;> rfl
    | rejected key error =>
        have hnone := htracked.before n request hmem kind id _ _ hget (Or.inr ⟨key, rfl⟩)
        rw [hwent rfl, wentTo_eq_false f server _ hnone, Bool.false_and, Bool.false_and]
    | found key runtime =>
        -- No server has heard of the request before.
        have hnone := htracked.before n request hmem kind id _ _ hget (Or.inr ⟨key, rfl⟩)
        have hwent' := wentTo_eq_false f server _ hnone
        have hcalls : h.transport.calls.get? request.call = none := by
          cases hcall : h.transport.calls.get? request.call with
          | none => rfl
          | some call =>
              rcases hlinked.calls _ call hcall with hserver | ⟨m, hm⟩
              · rcases hlinked.closure with ⟨key', frame, hclosure, hacquires⟩
                rw [← hserver, hget, Option.some.injEq] at hclosure
                rw [← hclosure] at hacquires
                exact hacquires.elim
              · rw [(hlinked.known _ m hm).2] at hwent'
                exact absurd hwent' (by simp)
        rw [hwent', Bool.false_and]
        cases kind <;> simp [Frame.accepted, hcalls]
    | answered key runtime response => exact absurd rfl (hb _)
    | failed key runtime error => exact absurd rfl (hb _)
    | touched key response =>
        rw [hwent rfl]
        cases kind <;> rfl

/-- Another runtime is named. -/
theorem accepted_owner (f : Fleet) (htracked : Tracked f.history f.world) (runtime : RuntimeId)
    (hnew : f.world.nextRuntime ≤ runtime) (call server : CallId) (t : Transport)
    (request : ControlRequest) :
    accepted { f with owners := f.owners.set runtime call } server t request =
      f.accepted server t request := by
  have hwent : wentTo { f with owners := f.owners.set runtime call } server request.call =
      f.wentTo server request.call := by
    rw [Bool.eq_iff_iff, wentTo_iff, wentTo_iff]
    refine exists_congr fun rt => and_congr_right fun hmem => ?_
    have hne : rt ≠ runtime :=
      Nat.ne_of_lt (Nat.lt_of_lt_of_le (htracked.bound _ rt hmem) hnew)
    rw [Table.get?_set_ne _ _ _ _ hne]
  rw [accepted, accepted, hwent]

/-- The registry hears from the server what has become of the call. -/
theorem accepted_answer (f : Fleet) (htracked : Tracked f.history f.world) (w : World)
    (call : CallId) (id : String) (message : Json) (key : SessionKey) (runtime : RuntimeId)
    (owner : CallId) (s₀ : Server) (request₀ : Json) (result : Except String (Tagged LspMessage))
    (hframe : f.world.calls.get? call = some (.forward .call id message (.awaiting key runtime)))
    (howner : f.owners.get? runtime = some owner) (hs₀ : f.servers.get? owner = some s₀)
    (hcall : s₀.sharing.transport.calls.get? call = some ⟨request₀, .returned result⟩)
    (hw : f.world.step
      (.runtimeReturns call (result.map fun response => response.content.payload)) = some w)
    (server : CallId) (s : Server) (hs : f.servers.get? server = some s) (n : Nat)
    (request : ControlRequest) (hmem : request ∈ f.history n) (hrequest : request.call = call) :
    accepted { f with world := w } server s.sharing.transport request =
      f.accepted server s.sharing.transport request := by
  rw [← hrequest] at hframe hcall
  have hwent := wentTo_after f htracked n request hmem .call id message key runtime hframe owner
    howner server
  rcases routed_step f.world w _ hw _ .call id _ _ hframe with
    ⟨hsame, hrouted⟩ | ⟨events, pc', hnew, hadvances, hrouted⟩
  · rw [accepted_eq f server _ request _ hframe, accepted_eq _ server _ request _ hsame, wentTo,
      hrouted]
    rfl
  have hnone : events = [] := by
    cases result <;> simp only [Except.map] at hadvances <;> cases hadvances <;> rfl
  have hwent' : wentTo { f with world := w } server request.call = (owner == server) := by
    rw [← hwent, wentTo, hrouted, hnone]
    rfl
  rw [accepted_eq f server _ request _ hframe, accepted_eq _ server _ request _ hnew, hwent]
  by_cases hserver : owner = server
  swap
  · -- the other servers have nothing to do with the request
    have hnot : (owner == server) = false := beq_eq_false_iff_ne.mpr hserver
    rw [hwent', hnot, Bool.false_and, Bool.false_and]
  rw [hserver, hs, Option.some.injEq] at hs₀
  rw [← hs₀] at hcall
  cases result with
  | ok response =>
      simp only [Except.map] at hadvances
      cases hadvances with
      | answered _ _ _ =>
          rw [hwent']
          simp [Frame.accepted, hcall, CallPc.accepted]
  | error error =>
      simp only [Except.map] at hadvances
      cases hadvances with
      | failed _ _ _ =>
          rw [hwent']
          simp [Frame.accepted, hcall, CallPc.accepted]

/-- The registry hears what has become of a notification. -/
theorem accepted_notification (f : Fleet) (htracked : Tracked f.history f.world) (w : World)
    (call : CallId) (id : String) (message : Json) (key : SessionKey) (runtime : RuntimeId)
    (owner : CallId) (result : Except String Json)
    (hframe : f.world.calls.get? call =
      some (.forward .notify id message (.awaiting key runtime)))
    (howner : f.owners.get? runtime = some owner)
    (hw : f.world.step (.runtimeReturns call result) = some w) (server : CallId) (t t' : Transport)
    (n : Nat) (request : ControlRequest) (hmem : request ∈ f.history n)
    (hrequest : request.call = call) :
    f.accepted server t request = false ∧
      (∀ response, result = .ok response →
        accepted { f with world := w } server t' request = (owner == server)) ∧
      ∀ error, result = .error error →
        accepted { f with world := w } server t' request =
          (owner == server && error == Transport.recvError) := by
  rw [← hrequest] at hframe hw
  have hwent := wentTo_after f htracked n request hmem .notify id message key runtime hframe owner
    howner server
  refine ⟨by rw [accepted_eq f server t request _ hframe]; exact Bool.and_false _, ?_⟩
  rcases forward_step f.world w _ hw request.call .notify id message _ hframe with
    ⟨hmover, _⟩ | ⟨events, pc', hnew, hlog, hadvances⟩
  · exact absurd rfl hmover
  · rw [accepted_eq _ server t' request _ hnew]
    have hwent' : events = [] →
        wentTo { f with world := w } server request.call = (owner == server) := by
      intro hnone
      rw [← hwent, wentTo, hlog, hnone]
      rfl
    cases hadvances with
    | answered _ _ response =>
        rw [hwent' rfl]
        exact ⟨fun _ _ => Bool.and_true _, by simp⟩
    | failed _ _ error =>
        rw [hwent' rfl]
        refine ⟨by simp, fun error' heq => ?_⟩
        rw [← Except.error.inj heq]
        rfl

/-! ### What was queued of a control connection -/

/-- Nothing is queued, and the same requests are accepted. -/
theorem forwards_same (f f' : Fleet) (server : CallId) (s s' : Server) (h : f.Forwards server s)
    (hhistory : f'.history = f.history)
    (hsent : ∀ n, s'.sharing.sentBy (.control n) s'.queued =
      s.sharing.sentBy (.control n) s.queued)
    (haccepted : ∀ n, ∀ request ∈ f.history n, f'.accepted server s'.sharing.transport request =
      f.accepted server s.sharing.transport request) : f'.Forwards server s' := by
  intro n
  rw [hsent, h n, hhistory]
  exact congrArg _ (List.filter_congr fun request hmem => (haccepted n request hmem).symm)

/-- The request under way is queued, and accepted. It is the last of its
    connection. -/
theorem forwards_one (f f' : Fleet) (htracked : Tracked f.history f.world) (server : CallId)
    (s s' : Server) (h : f.Forwards server s) (hhistory : f'.history = f.history) (n : Nat)
    (request : ControlRequest) (hmem : request ∈ f.history n) (frame : Frame)
    (hget : f.world.calls.get? request.call = some frame) (hflight : frame.inFlight = true)
    (hsent : ∀ m, s'.sharing.sentBy (.control m) s'.queued =
      s.sharing.sentBy (.control m) s.queued ++ if n = m then [request.message] else [])
    (hother : ∀ m, ∀ other ∈ f.history m, other.call ≠ request.call →
      f'.accepted server s'.sharing.transport other = f.accepted server s.sharing.transport other)
    (hold : f.accepted server s.sharing.transport request = false)
    (hnew : f'.accepted server s'.sharing.transport request = true) : f'.Forwards server s' := by
  intro m
  rw [hsent, h m, hhistory]
  by_cases hm : n = m
  swap
  · rw [if_neg hm, List.append_nil]
    refine congrArg _ (List.filter_congr fun other hother' => ?_)
    refine (hother m other hother' fun heq => hm ?_).symm
    exact htracked.apart n m request hmem other hother' heq.symm
  rw [if_pos hm, ← hm]
  -- The requests before it have returned.
  have hne : f.history n ≠ [] := List.ne_nil_of_mem hmem
  have hbefore : ∀ other ∈ (f.history n).dropLast, other.call ≠ request.call := by
    intro other hother' heq
    have hreturned := htracked.ordered n other hother' frame (by rw [heq, hget])
    rw [hflight] at hreturned
    exact absurd hreturned (by simp)
  have hlast : (f.history n).getLast hne = request := by
    have hsplit := List.dropLast_concat_getLast hne
    rw [← hsplit] at hmem
    rcases List.mem_append.mp hmem with hmem | hmem
    · exact absurd rfl (hbefore request hmem)
    · exact (List.mem_singleton.mp hmem).symm
  have hsplit : f.history n = (f.history n).dropLast ++ [request] := by
    rw [← hlast]
    exact (List.dropLast_concat_getLast hne).symm
  have hcongr : (f.history n).dropLast.filter (f'.accepted server s'.sharing.transport) =
      (f.history n).dropLast.filter (f.accepted server s.sharing.transport) :=
    List.filter_congr fun other hother' =>
      hother n other (List.mem_of_mem_dropLast hother') (hbefore other hother')
  rw [hsplit, List.filter_append, List.filter_append, hcongr]
  simp [hold, hnew]

/-- Whether a request is accepted depends on its call only. -/
theorem accepted_calls (f : Fleet) (server : CallId) (t t' : Transport) (request : ControlRequest)
    (hcalls : ((t'.calls.get? request.call).any fun c => c.pc.accepted) =
      (t.calls.get? request.call).any fun c => c.pc.accepted) :
    f.accepted server t' request = f.accepted server t request := by
  have hframe : ∀ frame : Frame,
      frame.accepted t' request.call = frame.accepted t request.call := by
    intro frame
    unfold Frame.accepted
    split
    · exact hcalls
    all_goals rfl
  rw [accepted, accepted, funext hframe]

/-- A call begins, and has queued nothing. -/
theorem forwards_begin (f : Fleet) (server : CallId) (s s' : Server)
    (ho : Ordered s.sharing s.queued s.frames s.writerFailed) (h : f.Forwards server s)
    (client : Option Nat) (call : CallId) (source : Owner) (request : Json)
    (hstep : s.sharing.step (.begin client call source request) = some s'.sharing)
    (hqueued : s'.queued = s.queued ++ s.sharing.transport.queuedBy s'.sharing.transport) :
    f.Forwards server s' := by
  rw [queuedBy_begin s.sharing s'.sharing client call source request hstep, List.append_nil]
    at hqueued
  rcases begin_eq_some s.sharing s'.sharing client call source request hstep with
    ⟨hfresh, t, pc, _, hh', ht, hpc⟩
  refine forwards_same f f server s s' h rfl (fun n => ?_) fun n req hmem => ?_
  · rw [hqueued, hh']
    exact Sharing.sentBy_named s.sharing _ _ s.queued ho.named
      (requests_set s.sharing call (Sharing.caller client) hfresh)
  · refine accepted_calls f server _ _ req ?_
    rw [hh', ht, Transport.setPc_calls]
    by_cases hc : req.call = call
    · rw [hc, Table.get?_set_self, ((Sharing.fresh_iff s.sharing call).mp hfresh).2]
      rcases hpc with hpc | hpc
      · rw [hpc]
        rfl
      · rw [hpc]
        rfl
    · rw [Table.get?_set_ne _ _ _ _ hc]

/-- A message of another party is queued. -/
theorem forwards_accept (f : Fleet) (server : CallId) (s s' : Server)
    (ho : Ordered s.sharing s.queued s.frames s.writerFailed) (h : f.Forwards server s)
    (c : CallId) (party : Party) (message : Json) (hfresh : s.sharing.fresh c = true)
    (hsharing : s'.sharing = s.sharing.accept c party message)
    (hqueued : s'.queued = s.queued ++ s.sharing.transport.queuedBy s'.sharing.transport)
    (hparty : ∀ n, party ≠ .control n) : f.Forwards server s' := by
  rw [hsharing, Sharing.queuedBy_accept] at hqueued
  refine forwards_same f f server s s' h rfl (fun n => ?_) fun n req hmem => ?_
  · rw [hqueued, hsharing, Sharing.sentBy_append, Sharing.sentBy_named s.sharing _ _ s.queued
      ho.named (requests_set s.sharing c party hfresh),
      Sharing.sentBy_singleton _ _ party c message (Table.get?_set_self _ _ _),
      if_neg (hparty n), List.append_nil]
  · rw [hsharing]
    rfl

/-- A step of the transport queues nothing, and every call is accepted as it was,
    or it queues the request of one call, which is accepted by that. -/
theorem accepted_step (t t' : Transport) (b : TransportAction) (hstep : t.step b = some t')
    (hbegin : ∀ c source request, b ≠ .begin c source request)
    (hforward : ∀ owner message, b ≠ .forward owner message) :
    t.queuedBy t' = [] ∧ (∀ c, ((t'.calls.get? c).any fun call => call.pc.accepted) =
        (t.calls.get? c).any fun call => call.pc.accepted) ∨
      ∃ c request rx, t.queuedBy t' = [⟨some c, request⟩] ∧
        t.calls.get? c = some ⟨request, .sending rx⟩ ∧
        t'.calls.get? c = some ⟨request, .receiving rx⟩ ∧
        ∀ d, d ≠ c → ((t'.calls.get? d).any fun call => call.pc.accepted) =
          (t.calls.get? d).any fun call => call.pc.accepted := by
  -- A call that does not queue its request in this step.
  have hsame : ∀ d, (∀ request, t'.inbound ≠ t.inbound ++ [⟨some d, request⟩]) →
      ((t'.calls.get? d).any fun call => call.pc.accepted) =
        (t.calls.get? d).any fun call => call.pc.accepted := by
    intro d hd
    cases hcall : t.calls.get? d with
    | none => rw [Transport.call_begun t t' b hstep d hcall (hbegin d)]
    | some call =>
        rcases call with ⟨request, pc⟩
        rcases Transport.call_step t t' b hstep d request pc hcall with
          ⟨_, hget⟩ | ⟨pc', hget, hadvances⟩
        · rw [hget]
        · rw [hget, Option.any_some, Option.any_some]
          cases hadvances with
          | unqueued rx hwriter hinbound => simp [CallPc.accepted, Transport.recvError]
          | queued rx hinbound => exact absurd hinbound (hd request)
          | polled rx rx' hinbound => rfl
          | answered rx m hm hexpects hinbound => rfl
          | failed rx hinbound => simp [CallPc.accepted]
  rcases Transport.queuedBy_step t t' b hstep with
    hnone | ⟨c, request, rx, hb, hcall, hone⟩ | ⟨owner, message, hb⟩
  · refine Or.inl ⟨hnone, fun c => hsame c fun request hinbound => ?_⟩
    rw [Transport.queuedBy_append t t' _ hinbound] at hnone
    exact absurd hnone (by simp)
  · refine Or.inr ⟨c, request, rx, hone, hcall, ?_, fun d hd => hsame d fun request' hinbound => ?_⟩
    · rw [hb] at hstep
      rcases Transport.call_step t t' _ hstep c request _ hcall with
        ⟨hstays, _⟩ | ⟨pc', hget, hadvances⟩
      · exact absurd rfl hstays.1
      · cases hadvances with
        | unqueued _ hwriter hinbound =>
            rw [Transport.queuedBy_same t t' hinbound] at hone
            exact absurd hone (by simp)
        | queued _ hinbound => exact hget
    · rw [Transport.queuedBy_append t t' _ hinbound, List.cons.injEq, Tagged.mk.injEq,
        Option.some.injEq] at hone
      exact hd hone.1.1
  · exact absurd hb (hforward owner message)

/-- The transport goes on. The registry waits for a call that queues its
    request, which is then the last of its connection. -/
theorem forwards_transport (f : Fleet) (htracked : Tracked f.history f.world) (server : CallId)
    (s s' : Server) (hlinked : f.Linked server s.sharing)
    (ho : Ordered s.sharing s.queued s.frames s.writerFailed) (h : f.Forwards server s)
    (b : TransportAction) (t : Transport) (hstep : s.sharing.transport.step b = some t)
    (hsharing : s'.sharing = { s.sharing with transport := t })
    (hqueued : s'.queued = s.queued ++ s.sharing.transport.queuedBy t)
    (hbegin : ∀ c source request, b ≠ .begin c source request)
    (hforward : ∀ owner message, b ≠ .forward owner message) : f.Forwards server s' := by
  have hparties : ∀ party ms, s'.sharing.sentBy party ms = s.sharing.sentBy party ms := by
    intro party ms
    rw [hsharing]
    rfl
  have htransport : s'.sharing.transport = t := by rw [hsharing]
  rcases accepted_step s.sharing.transport t b hstep hbegin hforward with
    ⟨hnone, hcalls⟩ | ⟨c, request, rx, hone, hcall, hreceiving, hcalls⟩
  · rw [hnone, List.append_nil] at hqueued
    refine forwards_same f f server s s' h rfl (fun n => ?_) fun n req hmem => ?_
    · rw [hparties, hqueued]
    · rw [htransport]
      exact accepted_calls f server _ t req (hcalls req.call)
  rw [hone] at hqueued
  rcases ho.called c _ hcall with ⟨party, hparty, _⟩
  have hsent : ∀ m, s'.sharing.sentBy (.control m) s'.queued =
      s.sharing.sentBy (.control m) s.queued ++ if party = .control m then [request] else [] := by
    intro m
    rw [hparties, hqueued, Sharing.sentBy_append,
      Sharing.sentBy_singleton _ _ party c request hparty]
  -- What was queued is a connection's request, or the closure's.
  by_cases hcontrol : ∃ n, party = .control n
  swap
  · -- the call of the closure is no request of a connection
    refine forwards_same f f server s s' h rfl (fun n => ?_) fun n req hmem => ?_
    · rw [hsent n, if_neg fun heq => hcontrol ⟨n, heq⟩, List.append_nil]
    · rw [htransport]
      refine accepted_calls f server _ t req (hcalls req.call fun hc => ?_)
      rcases hlinked.calls c _ hcall with hserver | ⟨m, hm⟩
      · rcases hlinked.closure with ⟨key, frame, hclosure, hacquires⟩
        rcases htracked.begun n req hmem with ⟨kind, id, pc, hget⟩
        rw [hc, hserver, hclosure, Option.some.injEq] at hget
        rw [hget] at hacquires
        exact hacquires.elim
      · rw [hm, Option.some.injEq] at hparty
        exact hcontrol ⟨m, hparty.symm⟩
  rcases hcontrol with ⟨n, hn⟩
  rw [hn] at hparty hsent
  -- The call that sends is the frame's own, on the runtime it has found.
  rcases hlinked.sending c request rx n hcall hparty with ⟨id, key, runtime, hframe, howner⟩
  have hknown := hlinked.known c n hparty
  have hmem := mem_history_of_sent f htracked.begun n c hknown.1 .call id request _ hframe
  refine forwards_one f f htracked server s s' h rfl n ⟨c, request⟩ hmem _ hframe rfl
    (fun m => ?_) (fun m other _ hother => ?_) ?_ ?_
  · rw [hsent m]
    simp only [Party.control.injEq]
  · rw [htransport]
    exact accepted_calls f server _ t other (hcalls other.call hother)
  · rw [accepted_eq f server _ ⟨c, request⟩ _ hframe]
    simp [Frame.accepted, hcall, CallPc.accepted]
  · rw [accepted_eq f server _ ⟨c, request⟩ _ hframe, htransport]
    simp [Frame.accepted, hreceiving, CallPc.accepted, hknown.2]

theorem forwards_moves (f : Fleet) (htracked : Tracked f.history f.world) (server : CallId)
    (s s' : Server) (a : FleetAction) (hmoves : f.Moves server s a s')
    (hlinked : f.Linked server s.sharing)
    (ho : Ordered s.sharing s.queued s.frames s.writerFailed) (h : f.Forwards server s) :
    f.Forwards server s' := by
  have hsame : ∀ u : Server, u.sharing.transport = s.sharing.transport →
      u.sharing.requests = s.sharing.requests → u.queued = s.queued → f.Forwards server u := by
    intro u htransport hrequests hqueued
    refine forwards_same f f server s u h rfl (fun n => ?_) fun n req hmem => ?_
    · rw [Sharing.sentBy, Sharing.sentBy, hrequests, hqueued]
    · rw [htransport]
  have hunqueued : ∀ t : Transport, t.inbound = s.sharing.transport.inbound →
      s.queued ++ s.sharing.transport.queuedBy t = s.queued := by
    intro t hinbound
    rw [Transport.queuedBy_same _ _ hinbound, List.append_nil]
  cases hmoves with
  | callInitialize rootUri options g hboot hh =>
      exact forwards_begin f server s _ ho h none server .session _ hh rfl
  | bootstrapped c request response hboot hcall hfresh =>
      exact forwards_accept f server s _ ho h c .daemon _ hfresh rfl rfl (by simp)
  | bootstrapFails c error hboot hcall => exact hsame _ rfl rfl rfl
  | call n call id message key runtime g hframe howner hsent hh =>
      exact forwards_begin f server s (s.after g) ho h (some n) call .session message hh rfl
  | connect attach n lease handle g₁ g₂ hframe howner hh hh' =>
      rcases connect_keeps s.sharing g₁ g₂ n lease.id hh hh' with ⟨hrequests, htransport, _, _⟩
      have hqueued : (s.after g₂).queued = s.queued := hunqueued g₂.transport (by rw [htransport])
      refine forwards_same f f server s (s.after g₂) h rfl (fun m => ?_) fun m req hmem => ?_
      · rw [Sharing.sentBy, Sharing.sentBy, hqueued]
        exact congrArg (fun requests : Table CallId Party => (s.queued.filter fun message =>
          message.caller.bind requests.get? == some (.control m)).map Tagged.content) hrequests
      · refine accepted_calls f server s.sharing.transport g₂.transport req ?_
        rw [htransport]
  | daemonSends c message g howned hmessage hh =>
      rcases Sharing.send_cases s.sharing g none c .session message hh with ⟨hfresh, heq | heq⟩
      · rw [heq]
        exact hsame _ rfl rfl (hunqueued s.sharing.transport rfl)
      · exact forwards_accept f server s (s.after g) ho h c .daemon message hfresh heq rfl (by simp)
  | act b g hmay hh =>
      cases act_cases s g b hmay hh with
      | transport b t ht hbegin hforward =>
          exact forwards_transport f htracked server s _ hlinked ho h b t ht rfl rfl hbegin hforward
      | readOver n frame c u hu hother => exact hsame _ rfl rfl (hunqueued s.sharing.transport rfl)
      | failed n frame c u hu hreading hwriter =>
          exact hsame _ rfl rfl (hunqueued s.sharing.transport rfl)
      | accepted n frame c u hu hlease htype hfresh =>
          exact forwards_accept f server s _ ho h c (.stream n) frame.payload hfresh rfl rfl
            (by simp)
      | moved _ n u u' ha hframe hu hmoved =>
          exact hsame _ rfl rfl (hunqueued s.sharing.transport rfl)

/-- Every server has been queued what the connections have sent. -/
structure Orderly (f : Fleet) : Prop where
  coherent : Coherent f
  ordered : ∀ server s, f.servers.get? server = some s →
    Ordered s.sharing s.queued s.frames s.writerFailed
  forwards : ∀ server s, f.servers.get? server = some s → f.Forwards server s

/-- Nothing has gone to a server that is just spawned. -/
theorem forwards_spawn (f : Fleet) (howned : Owned f) (server : CallId)
    (hfree : f.servers.get? server = none) : f.Forwards server .spawn := by
  intro n
  have hnone : (f.history n).filter (f.accepted server Server.spawn.sharing.transport) = [] := by
    rw [List.filter_eq_nil_iff]
    intro request hmem haccepted
    rw [accepted, Bool.and_eq_true] at haccepted
    rcases (wentTo_iff f server request.call).mp haccepted.1 with ⟨runtime, _, howner⟩
    rcases howned.booted runtime server howner with ⟨s, _, hs, _⟩
    rw [hfree] at hs
    exact absurd hs (by simp)
  rw [hnone]
  rfl

/-- A connection sends a request, which nobody has accepted yet. -/
theorem forwards_request (f : Fleet) (htracked : Tracked f.history f.world) (w : World) (n : Nat)
    (kind : ForwardKind) (leaseId : String) (message : Json) (call : CallId)
    (hw : f.world.step (.start call (.forwardByLeaseId kind leaseId message)) = some w)
    (server : CallId) (s : Server) (hlinked : f.Linked server s.sharing)
    (h : f.Forwards server s) :
    Forwards { f with
      world := w
      connections := f.connections.set n (f.history n ++ [⟨call, message⟩]) } server s := by
  have hworld : Forwards { f with world := w } server s :=
    forwards_same f { f with world := w } server s s h rfl (fun _ => rfl) fun m request hmem =>
      accepted_world f htracked w _ hw server s.sharing hlinked m request hmem (by simp)
  have hnew :
      accepted { f with world := w } server s.sharing.transport ⟨call, message⟩ = false := by
    have hnone : routedTo call w.log = [] := by
      rw [routedTo_other f.world w _ hw call (by simp [Action.mover])]
      exact htracked.started call (start_eq_some f.world w call _ hw).1
    rw [accepted, wentTo_eq_false { f with world := w } server call hnone, Bool.false_and]
  have hfilter : ∀ requests : List ControlRequest,
      requests.filter (accepted { f with
        world := w
        connections := f.connections.set n (f.history n ++ [⟨call, message⟩]) } server
        s.sharing.transport) =
      requests.filter (accepted { f with world := w } server s.sharing.transport) := fun _ => rfl
  intro m
  rw [hworld m, history_set, hfilter]
  by_cases hm : m = n
  · rw [if_pos hm, hm, List.filter_append]
    simp only [List.filter_cons, hnew, Bool.false_eq_true, if_false, List.filter_nil,
      List.append_nil]
    rfl
  · rw [if_neg hm]
    rfl

/-- The registry hears what has become of a notification. -/
theorem forwards_notification (f : Fleet) (h : Orderly f) (w : World) (call : CallId) (id : String)
    (message : Json) (key : SessionKey) (runtime : RuntimeId) (owner : CallId)
    (result : Except String Json)
    (hframe : f.world.calls.get? call =
      some (.forward .notify id message (.awaiting key runtime)))
    (howner : f.owners.get? runtime = some owner)
    (hw : f.world.step (.runtimeReturns call result) = some w) (server : CallId) (s : Server)
    (hs : f.servers.get? server = some s)
    (hnot : owner ≠ server ∨ result = .error "failed to queue inbound lsp message") :
    Forwards { f with world := w } server s := by
  refine forwards_same f { f with world := w } server s s (h.forwards server s hs) rfl
    (fun _ => rfl) fun n request hmem => ?_
  by_cases hcall : request.call = call
  · rcases accepted_notification f h.coherent.tracked w call id message key runtime owner result
      hframe howner hw server s.sharing.transport s.sharing.transport n request hmem hcall with
      ⟨hold, hok, herror⟩
    rw [hold]
    rcases hnot with hne | heq
    · have hserver : (owner == server) = false := beq_eq_false_iff_ne.mpr hne
      cases hresult : result with
      | ok response => rw [hok response hresult, hserver]
      | error error => rw [herror error hresult, hserver, Bool.false_and]
    · rw [herror _ heq]
      simp [Transport.recvError]
  · exact accepted_world f h.coherent.tracked w _ hw server s.sharing
      (h.coherent.linked server s hs) n request hmem fun result' heq =>
        hcall (Action.runtimeReturns.inj heq).1.symm

/-- The registry goes on, without hearing from a server. -/
theorem forwards_world (f : Fleet) (h : Orderly f) (w : World) (b : Action)
    (hw : f.world.step b = some w) (hb : ∀ c result, b ≠ .runtimeReturns c result)
    (server : CallId) (s : Server) (hs : f.servers.get? server = some s) :
    Forwards { f with world := w } server s :=
  forwards_same f { f with world := w } server s s (h.forwards server s hs) rfl (fun _ => rfl)
    fun n request hmem => accepted_world f h.coherent.tracked w b hw server s.sharing
      (h.coherent.linked server s hs) n request hmem (hb request.call)

/-- The message of a notification is queued. -/
theorem forwards_notified (f : Fleet) (h : Orderly f) (w : World) (n : Nat) (call : CallId)
    (id : String) (message : Json) (key : SessionKey) (runtime : RuntimeId) (server : CallId)
    (s : Server)
    (hframe : f.world.calls.get? call =
      some (.forward .notify id message (.awaiting key runtime)))
    (howner : f.owners.get? runtime = some server) (hs : f.servers.get? server = some s)
    (hsent : f.sent n call = true) (hfresh : s.sharing.fresh call = true)
    (hw : f.world.step (.runtimeReturns call (.ok .null)) = some w) :
    Forwards { f with world := w } server
      (s.after (s.sharing.accept call (.control n) message)) := by
  have hmem := mem_history_of_sent f h.coherent.tracked.begun n call hsent .notify id message _
    hframe
  rcases accepted_notification f h.coherent.tracked w call id message key runtime server _ hframe
    howner hw server s.sharing.transport
    (s.sharing.accept call (.control n) message).transport n ⟨call, message⟩ hmem rfl with
    ⟨hold, hok, _⟩
  refine forwards_one f { f with world := w } h.coherent.tracked server s _
    (h.forwards server s hs) rfl n ⟨call, message⟩ hmem _ hframe rfl (fun m => ?_)
    (fun m other hother hne => ?_) hold ?_
  · have hqueued : (s.after (s.sharing.accept call (.control n) message)).queued =
        s.queued ++ [⟨some call, message⟩] :=
      congrArg _ (Sharing.queuedBy_accept s.sharing call (.control n) message)
    rw [hqueued, Sharing.sentBy_append, Sharing.sentBy_named s.sharing _ _ s.queued
      (h.ordered server s hs).named (requests_set s.sharing call (.control n) hfresh)]
    have hself : (s.sharing.accept call (.control n) message).requests.get? call =
        some (.control n) := Table.get?_set_self _ _ _
    refine congrArg _ ((Sharing.sentBy_singleton _ _ (.control n) call message hself).trans ?_)
    simp only [Party.control.injEq]
  · exact accepted_world f h.coherent.tracked w _ hw server s.sharing
      (h.coherent.linked server s hs) m other hother fun result heq =>
        hne (Action.runtimeReturns.inj heq).1.symm
  · rw [show accepted { f with world := w } server
      (s.after (s.sharing.accept call (.control n) message)).sharing.transport ⟨call, message⟩ =
        _ from hok .null rfl]
    exact beq_self_eq_true server

theorem forwards_step (f f' : Fleet) (a : FleetAction) (h : Orderly f) (hstep : f.step a = some f')
    (server : CallId) (s' : Server) (hs' : f'.servers.get? server = some s') :
    f'.Forwards server s' := by
  cases step_effect f f' a hstep with
  | world b w hb hw =>
      refine forwards_world f h w b hw (fun c result heq => ?_) server s' hs'
      rw [heq] at hb
      exact absurd hb (by simp [Action.ofRegistry])
  | spawn call key clientKind g hframe hfree =>
      rcases (Table.get?_set_eq_some _ _ _ _ _).mp hs' with ⟨hserver, heq⟩ | ⟨_, hold⟩
      · rw [← heq, hserver]
        exact forwards_spawn f h.coherent.owned call hfree
      · exact h.forwards server s' hold
  | spawnFails call error w hfree hw => exact forwards_world f h w _ hw (by simp) server s' hs'
  | server a srv s s₁ hs hmoves =>
      rcases (Table.get?_set_eq_some _ _ _ _ _).mp hs' with ⟨hserver, heq⟩ | ⟨_, hold⟩
      · rw [← heq, hserver]
        exact forwards_moves f h.coherent.tracked srv s s₁ _ hmoves (h.coherent.linked srv s hs)
          (h.ordered srv s hs) (h.forwards srv s hs)
      · exact h.forwards server s' hold
  | booted call s result w hs hboot hw =>
      -- The runtime is named before it is counted.
      have hlinked := linked_owner f h.coherent.tracked f.world.nextRuntime (Nat.le_refl _) call
        server _ (h.coherent.linked server s' hs')
      refine forwards_same f _ server s' s' (h.forwards server s' hs') rfl (fun _ => rfl)
        fun n request hmem => ?_
      refine (accepted_world { f with owners := f.owners.set f.world.nextRuntime call }
        h.coherent.tracked w _ hw server s'.sharing hlinked n request hmem (by simp)).trans ?_
      exact accepted_owner f h.coherent.tracked f.world.nextRuntime (Nat.le_refl _) call server _
        request
  | bootFailed call s error w hs hboot hw =>
      exact forwards_world f h w _ hw (by simp) server s' hs'
  | request n kind leaseId message call w hidle hw =>
      exact forwards_request f h.coherent.tracked w n kind leaseId message call hw server s'
        (h.coherent.linked server s' hs') (h.forwards server s' hs')
  | returned call id message key runtime owner s request result w hframe howner hs hcall hw =>
      refine forwards_same f { f with world := w } server s' s' (h.forwards server s' hs') rfl
        (fun _ => rfl) fun n req hmem => ?_
      by_cases hreq : req.call = call
      · exact accepted_answer f h.coherent.tracked w call id message key runtime owner s request
          result hframe howner hs hcall hw server s' hs' n req hmem hreq
      · exact accepted_world f h.coherent.tracked w _ hw server s'.sharing
          (h.coherent.linked server s' hs') n req hmem fun result' heq =>
            hreq (Action.runtimeReturns.inj heq).1.symm
  | notifyFails n call id message key runtime owner s w hframe howner hs hsent hwriter hw =>
      exact forwards_notification f h w call id message key runtime owner _ hframe howner hw server
        s' hs' (Or.inr rfl)
  | notified n call id message key runtime owner s w hframe howner hs hsent hfresh hw =>
      rcases (Table.get?_set_eq_some _ _ _ _ _).mp hs' with ⟨hserver, heq⟩ | ⟨hne, hold⟩
      · rw [← heq, hserver]
        exact forwards_notified f h w n call id message key runtime owner s hframe howner hs hsent
          hfresh hw
      · exact forwards_notification f h w call id message key runtime owner _ hframe howner hw
          server s' hold (Or.inl (Ne.symm hne))

theorem orderly_init (idleTtl : Duration) : Orderly (init idleTtl) where
  coherent := coherent_init idleTtl
  ordered := fun server s hs => by simp [init] at hs
  forwards := fun server s hs => by simp [init] at hs

theorem orderly_step (f f' : Fleet) (a : FleetAction) (h : Orderly f)
    (hstep : f.step a = some f') : Orderly f' where
  coherent := coherent_step f f' a h.coherent hstep
  ordered := ordered_step f f' a h.ordered hstep
  forwards := forwards_step f f' a h hstep

theorem orderly_run (idleTtl : Duration) (as : List FleetAction) (f : Fleet)
    (h : run step (init idleTtl) as = some f) : Orderly f :=
  run_invariant (fun f a f' hf hstep _ => orderly_step f f' a hf hstep) as (init idleTtl) f h
    (orderly_init idleTtl) (along_true as (init idleTtl))

end Fleet

/-- Nothing that was queued waits to be written. -/
def Server.drained (s : Server) : Prop :=
  s.sharing.transport.inbound = [] ∧ s.sharing.transport.writer.hand = []

instance (s : Server) : Decidable s.drained := inferInstanceAs (Decidable (_ ∧ _))

namespace Fleet

/-- Per connection, in order and exactly once: what has reached the standard
    input of a server whose writer task has not failed is, of every control
    connection, the list of its accepted requests, and of every stream, the list
    of its matching frames. -/
theorem forwarded_in_order (idleTtl : Duration) (as : List FleetAction) (f : Fleet)
    (h : run step (init idleTtl) as = some f) (server : CallId) (s : Server)
    (hs : f.servers.get? server = some s) (hwriter : s.writerFailed = false)
    (hdrained : s.drained) (n : Nat) :
    s.sharing.sentBy (.control n) s.sharing.transport.received.reverse =
        ((f.history n).filter (f.accepted server s.sharing.transport)).map
          ControlRequest.message ∧
      s.sharing.sentBy (.stream n) s.sharing.transport.received.reverse =
        s.sharing.matching n s.frames := by
  have horderly := orderly_run idleTtl as f h
  have ho := horderly.ordered server s hs
  -- Everything that was queued has been read.
  have hread : s.sharing.transport.received.reverse = s.queued := by
    rw [← ho.piped hwriter, Transport.pipe, hdrained.1, hdrained.2, List.append_nil,
      List.append_nil]
  rw [hread]
  exact ⟨horderly.forwards server s hs n, ho.streamed hwriter n⟩

/-- A notification and the frame of a stream are forwarded, a call under an
    unknown lease is rejected, and the queue is drained. -/
def feedAndDrain : List FleetAction :=
  attachAndNotify ++
    [.world (.sect 2), .world (.sect 0), .connect 0 3,
      .server 0 (.frame 3 ⟨protocolVersion, .lspIn, "lease_1", 1, .obj [("id", .str "a")]⟩ 4),
      .request 7 .call "lease_9" (.obj [("id", .str "b")]) 5, .world (.sect 5),
      .server 0 (.transport .writerTake), .server 0 (.transport .writerWrote),
      .server 0 (.transport .writerTake), .server 0 (.transport .writerWrote),
      .server 0 (.transport .writerTake), .server 0 (.transport .writerWrote)]

theorem feedAndDrain_isSome : (run step (init 0) feedAndDrain).isSome = true := by decide

def fedFleet : Fleet := (run step (init 0) feedAndDrain).get feedAndDrain_isSome

theorem fedFleet_isSome : (fedFleet.servers.get? 0).isSome = true := by decide

def fedServer : Server := (fedFleet.servers.get? 0).get fedFleet_isSome

theorem forwarded_in_order_feedAndDrain :
    fedServer.sharing.sentBy (.control 7) fedServer.sharing.transport.received.reverse =
        [.obj [("method", .str "textDocument/didOpen")]] ∧
      fedServer.sharing.sentBy (.stream 3) fedServer.sharing.transport.received.reverse =
        [.obj [("id", .str "a")]] := by
  have h := fun n => forwarded_in_order 0 feedAndDrain fedFleet (Option.some_get _).symm 0 fedServer
    (Option.some_get _).symm (by decide) (by decide) n
  exact ⟨(h 7).1.trans (by decide), (h 3).2.trans (by decide)⟩

end Fleet

end Lspee
