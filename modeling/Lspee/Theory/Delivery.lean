import Lspee.Core.Delivery
import Lspee.Theory.Numbering

/-!
# What a Dedicated Stream Loses

The messages a server writes pass three places on the way to the client of a
stream: the server's output, the broadcast, and the stream's own tasks. What is
on its way, together with what has been written to the client, is `coming`. As
long as client and server stay alive, no task loses anything of it, and the
tasks bring all of it to the client (`collects_iff`).

So a stream loses messages in two places only. The client connects after the
answer, and nothing has subscribed for it until then. And the broadcast keeps
256 messages: a forwarding task that is as many behind loses one to the next,
and does not say so. At each of these two steps the condition `KeepsAll` says
that nothing is lost, and it is exact (`lossless_iff`).

## Main definitions

* `Outputs`: What a step of the transport does to the server's output.
* `coming`: What has been written to a client or is on its way to it.
* `Alive`, `Live`: The client and the server stay alive.
* `Collects`: What a client has been written once its stream has caught up.
* `Lossless`: A client receives what it is owed.
* `KeepsAll`: The condition on a step.

## Theorems

* `outputs_step`: Only the server and the reader touch the server's output.
* `taken_acted`: The stream's tasks lose nothing.
* `collects_iff`: What a client receives is what is coming.
* `lossless_iff`: The condition is exact over whole runs.
* `lost_before_connect`: A run that breaks it.
-/

namespace Lspee

open Transition Broadcast

/-! ### The server's output -/

namespace Transport

/-- Neither the server's output nor the broadcast has changed. -/
structure SameOutput (t t' : Transport) : Prop where
  stdout : t'.stdout = t.stdout
  outbound : t'.outbound = t.outbound
  open_ : t'.open_ = t.open_
  reading : t'.reading = t.reading

/-- What the server writes in a step. -/
def wrote : TransportAction → List Json
  | .emit _ payload => [payload]
  | _ => []

/-- What a step does to the server's output. -/
inductive Outputs (t : Transport) : TransportAction → Transport → Prop where
  | same (a : TransportAction) (t' : Transport) (ha : wrote a = []) (h : SameOutput t t') :
      Outputs t a t'
  | emit (caller : Option CallId) (payload : Json) :
      Outputs t (.emit caller payload) { t with stdout := t.stdout ++ [⟨caller, payload⟩] }
  | read (m : Tagged Json) (rest : List (Tagged Json)) (hstdout : t.stdout = m :: rest) :
      Outputs t .read { t with
        stdout := rest
        outbound := t.outbound.send ⟨m.caller, LspMessage.fromJson m.content⟩ }
  | exit (t' : Transport) : Outputs t .exit t'
  | readEnd (t' : Transport) (hclosed : t.open_ = false) : Outputs t .readEnd t'
  | readError (t' : Transport) : Outputs t .readError t'

theorem sameOutput_setPc (t : Transport) (call : CallId) (request : Json) (pc : CallPc) :
    SameOutput t (t.setPc call request pc) :=
  ⟨rfl, rfl, rfl, rfl⟩

theorem sameOutput_sendInbound (t t' : Transport) (message : Tagged Json)
    (h : t.sendInbound message = some (.ok t')) : SameOutput t t' := by
  unfold sendInbound at h
  by_cases hwriter : t.writer = .stopped
  · simp only [if_pos hwriter, Option.some.injEq, reduceCtorEq] at h
  · rw [if_neg hwriter, Option.ite_none_right_eq_some, Option.some.injEq, Except.ok.injEq] at h
    rw [← h.2]
    exact ⟨rfl, rfl, rfl, rfl⟩

theorem sameOutput_sendCall (t t' : Transport) (call : CallId) (request : Json) (rx : Receiver)
    (h : t.sendCall call request rx = some t') : SameOutput t t' := by
  unfold sendCall at h
  cases hsend : t.sendInbound ⟨some call, request⟩ with
  | none => simp only [hsend, reduceCtorEq] at h
  | some result =>
      cases result with
      | error error =>
          simp only [hsend, Option.some.injEq] at h
          rw [← h]
          exact sameOutput_setPc t call request _
      | ok u =>
          have hu := sameOutput_sendInbound t u _ hsend
          simp only [hsend, Option.some.injEq] at h
          rw [← h]
          exact ⟨hu.stdout, hu.outbound, hu.open_, hu.reading⟩

theorem sameOutput_recvCall (t t' : Transport) (call : CallId) (request : Json) (rx : Receiver)
    (h : t.recvCall call request rx = some t') : SameOutput t t' := by
  unfold recvCall at h
  cases hrecv : t.outbound.recv t.senders rx with
  | value message rx' =>
      simp only [hrecv] at h
      by_cases hexpects : expects request message = true
      · rw [if_pos hexpects, Option.some.injEq] at h
        rw [← h]
        exact sameOutput_setPc t call request _
      · rw [if_neg hexpects, Option.some.injEq] at h
        rw [← h]
        exact sameOutput_setPc t call request _
  | lagged missed rx' =>
      simp only [hrecv, Option.some.injEq] at h
      rw [← h]
      exact sameOutput_setPc t call request _
  | closed =>
      simp only [hrecv, Option.some.injEq] at h
      rw [← h]
      exact sameOutput_setPc t call request _
  | pending => simp only [hrecv, reduceCtorEq] at h

theorem sameOutput_begin (t t' : Transport) (call : CallId) (source : Owner) (request : Json)
    (h : t.step (.begin call source request) = some t') : SameOutput t t' := by
  simp only [step, Option.ite_none_right_eq_some, Option.some.injEq] at h
  rcases beginCall_cases { t with handles := .call call :: t.handles } call request with
    ⟨pc, hbegin, _⟩
  rw [← h.2, hbegin]
  exact ⟨rfl, rfl, rfl, rfl⟩

/-- The reader takes the oldest message, and broadcasts it. -/
theorem read_cases (t t' : Transport) (h : t.step .read = some t') :
    ∃ m rest, t.stdout = m :: rest ∧ t' = { t with
      stdout := rest
      outbound := t.outbound.send ⟨m.caller, LspMessage.fromJson m.content⟩ } := by
  simp only [step] at h
  cases hreading : t.reading with
  | false => simp only [hreading, reduceCtorEq] at h
  | true =>
      cases hstdout : t.stdout with
      | nil => simp only [hreading, hstdout, reduceCtorEq] at h
      | cons m rest =>
          simp only [hreading, hstdout, Option.some.injEq] at h
          exact ⟨m, rest, rfl, by rw [← h]⟩

/-- Only the server and the reader touch the server's output. -/
theorem outputs_step (t t' : Transport) (a : TransportAction) (h : t.step a = some t') :
    Outputs t a t' := by
  cases a with
  | begin call source request => exact .same _ _ rfl (sameOutput_begin t t' call source request h)
  | send call =>
      simp only [step] at h
      cases hcall : t.calls.get? call with
      | none => simp only [hcall, reduceCtorEq] at h
      | some c =>
          rcases c with ⟨request, pc⟩
          cases pc with
          | sending rx =>
              simp only [hcall] at h
              exact .same _ _ rfl (sameOutput_sendCall t t' call request rx h)
          | receiving rx | returned result => simp only [hcall, reduceCtorEq] at h
  | recv call =>
      simp only [step] at h
      cases hcall : t.calls.get? call with
      | none => simp only [hcall, reduceCtorEq] at h
      | some c =>
          rcases c with ⟨request, pc⟩
          cases pc with
          | receiving rx =>
              simp only [hcall] at h
              exact .same _ _ rfl (sameOutput_recvCall t t' call request rx h)
          | sending rx | returned result => simp only [hcall, reduceCtorEq] at h
  | forward owner message =>
      simp only [step, Option.ite_none_right_eq_some] at h
      cases hsend : t.sendInbound ⟨none, message⟩ with
      | none => simp only [hsend, reduceCtorEq, and_false] at h
      | some result =>
          cases result with
          | error error =>
              simp only [hsend, Option.some.injEq] at h
              rw [← h.2]
              exact .same _ _ rfl ⟨rfl, rfl, rfl, rfl⟩
          | ok u =>
              simp only [hsend, Option.some.injEq] at h
              rw [← h.2]
              exact .same _ _ rfl (sameOutput_sendInbound t u _ hsend)
  | emit caller payload =>
      simp only [step, Option.ite_none_right_eq_some, Option.some.injEq] at h
      rw [← h.2]
      exact .emit caller payload
  | read =>
      rcases read_cases t t' h with ⟨m, rest, hstdout, ht'⟩
      rw [ht']
      exact .read m rest hstdout
  | exit => exact .exit t'
  | readEnd =>
      simp only [step, Option.ite_none_right_eq_some, Bool.not_eq_true] at h
      -- The reader ends only when the server has closed its output.
      exact .readEnd t' h.1.2.2
  | readError => exact .readError t'
  | clone source n | drop owner | writerEnd =>
      simp only [step, Option.ite_none_right_eq_some, Option.some.injEq] at h
      rw [← h.2]
      exact .same _ _ rfl ⟨rfl, rfl, rfl, rfl⟩
  | writerTake =>
      simp only [step] at h
      split at h
      · rw [← Option.some.inj h]
        exact .same _ _ rfl ⟨rfl, rfl, rfl, rfl⟩
      · exact absurd h (by simp)
  | writerWrote | writerFailed delivered =>
      simp only [step] at h
      split at h
      · rw [← Option.some.inj h]
        exact .same _ _ rfl ⟨rfl, rfl, rfl, rfl⟩
      · exact absurd h (by simp)

end Transport

/-! ### What is on its way -/

/-- The messages in the frames of the forwarding task. -/
def payloads (frames : List (Tagged StreamFrame)) : List Json :=
  (frames.filter isForwarded).map fun frame => frame.content.payload

theorem payloads_append (frames more : List (Tagged StreamFrame)) :
    payloads (frames ++ more) = payloads frames ++ payloads more := by
  unfold payloads
  rw [List.filter_append, List.map_append]

/-- What of the server's output the reader has not read. -/
def Transport.written (t : Transport) : List Json :=
  t.stdout.map fun m => m.content

namespace LeaseStream

/-- What a stream's forwarding task can still be given, and what it has been
    given. -/
def taken (outbound : Channel (Tagged LspMessage)) (s : LeaseStream) : List Json :=
  payloads (s.delivered ++ s.queue ++ s.inHand.toList) ++
    (outbound.kept s.rx).map fun m => m.content.payload

/-- What has been written to a client, and what is on its way to it. -/
def coming (t : Transport) (s : LeaseStream) : List Json :=
  s.taken t.outbound ++ t.written

/-- The tasks between the broadcast and the client run. -/
structure Forwards (s : LeaseStream) : Prop where
  runtimeTask : s.runtimeTask = .running
  writerTask : s.writerTask = .running

theorem forwards_connect (leaseId : String) (rx : Receiver) : Forwards (connect leaseId rx) :=
  ⟨rfl, rfl⟩

theorem taken_take (s s' : LeaseStream) (outbound : Channel (Tagged LspMessage))
    (senders : Nat) (hsenders : senders ≠ 0) (hs : Forwards s)
    (h : s.take outbound senders = some s') :
    s'.taken outbound = s.taken outbound ∧ Forwards s' := by
  rcases take_cases s s' outbound senders h with ⟨hrun, hhand, hcases⟩
  rcases hcases with ⟨hlags, hs'⟩ | ⟨hlags, m, rest, hunread, hs'⟩ | ⟨⟨hzero, _⟩, _⟩
  · rw [hs']
    refine ⟨?_, hs.runtimeTask, hs.writerTask⟩
    unfold taken
    rw [Channel.kept_oldest outbound s.rx hlags]
  · rw [hs']
    refine ⟨?_, hs.runtimeTask, hs.writerTask⟩
    have hnew : payloads [s.lspOut m] = [m.content.payload] := rfl
    unfold taken
    rw [Channel.kept_of_not_lags _ _ (Channel.not_lags_next outbound s.rx hlags),
      Channel.unread_next _ _ m rest hunread, Channel.kept_of_not_lags _ _ hlags, hunread, hhand,
      Option.toList_some, Option.toList_none, List.append_nil, payloads_append, hnew,
      List.append_assoc, List.singleton_append, List.map_cons]
  · exact absurd hzero hsenders

theorem taken_push (s s' : LeaseStream) (outbound : Channel (Tagged LspMessage))
    (hs : Forwards s) (h : s.push = some s') :
    s'.taken outbound = s.taken outbound ∧ Forwards s' := by
  rcases push_cases s s' h with ⟨frame, hrun, hhand, ⟨hstopped, _⟩ | hs'⟩
  · rw [hs.writerTask] at hstopped
    exact absurd hstopped (by simp)
  · rw [hs']
    refine ⟨?_, hs.runtimeTask, hs.writerTask⟩
    unfold taken
    rw [hhand, Option.toList_some, Option.toList_none, List.append_nil, List.append_assoc]

/-- The session's error is no message of the server. -/
theorem taken_event (s s' : LeaseStream) (outbound : Channel (Tagged LspMessage))
    (payload : Json) (hs : Forwards s) (h : s.event payload = some s') :
    s'.taken outbound = s.taken outbound ∧ Forwards s' := by
  simp only [event, Option.ite_none_right_eq_some, Option.some.injEq] at h
  rw [← h.2]
  refine ⟨?_, hs.runtimeTask, hs.writerTask⟩
  unfold taken
  simp only [payloads_append]
  have hnone : payloads [⟨none, ⟨protocolVersion, .streamError, s.leaseId, 1, payload⟩⟩] = [] := rfl
  rw [hnone, List.append_nil]

theorem taken_write (s s' : LeaseStream) (outbound : Channel (Tagged LspMessage))
    (hs : Forwards s) (h : s.write = some s') :
    s'.taken outbound = s.taken outbound ∧ Forwards s' := by
  rcases write_cases s s' h with ⟨frame, rest, hwriter, hqueue, hs'⟩
  rw [hs']
  refine ⟨?_, hs.runtimeTask, hs.writerTask⟩
  unfold taken
  rw [hqueue, List.append_assoc s.delivered, List.singleton_append]

end LeaseStream

/-! ### Client and server stay alive -/

namespace Sharing

/-- The client of the stream does not leave, and the server does not close its
    output. -/
def Alive (n : Nat) : SharingAction → Prop
  | .eof k => k ≠ n
  | .writeFails k => k ≠ n
  | .transport .exit => False
  | .transport .readError => False
  | _ => True

/-- What holds as long as the client and the server stay alive. -/
structure Live (n : Nat) (h : Sharing) : Prop where
  sound : h.Sound
  open_ : h.transport.open_ = true
  reading : h.transport.reading = true
  forwards : ∀ s, h.streams.get? n = some s → s.Forwards

/-- A stream's own tasks lose nothing. -/
theorem taken_acted (t : Transport) (n : Nat) (s s' : LeaseStream) (a : SharingAction)
    (halive : Alive n a) (hsenders : t.senders ≠ 0) (hs : s.Forwards) (h : Acted t n s a s') :
    s'.taken t.outbound = s.taken t.outbound ∧ s'.Forwards := by
  cases h with
  | take s' h => exact LeaseStream.taken_take s s' t.outbound t.senders hsenders hs h
  | push s' h => exact LeaseStream.taken_push s s' t.outbound hs h
  | event payload s' h => exact LeaseStream.taken_event s s' t.outbound payload hs h
  | write s' h => exact LeaseStream.taken_write s s' t.outbound hs h
  | eventEnds | fail => exact ⟨rfl, hs.runtimeTask, hs.writerTask⟩
  | writerDrained hstopped =>
      rw [hs.runtimeTask] at hstopped
      exact absurd hstopped (by simp)
  | writeFails | eof => exact absurd rfl halive

/-- What a step does to the server's output and the broadcast. -/
theorem sameOutput_step (h h' : Sharing) (a : SharingAction) (hstep : h.step a = some h') :
    (∃ b, a = .transport b ∧ h.transport.step b = some h'.transport) ∨
      (∀ b, a ≠ .transport b) ∧ Transport.SameOutput h.transport h'.transport := by
  cases step_effect h h' a hstep with
  | transport b t ht => exact Or.inl ⟨b, rfl, ht⟩
  | begin client call source request t hfresh ht =>
      exact Or.inr ⟨by simp, Transport.sameOutput_begin h.transport t call source request ht⟩
  | connect n leaseId hfree => exact Or.inr ⟨by simp, rfl, rfl, rfl, rfl⟩
  | request _ call party message ha hfresh => exact Or.inr ⟨ha, rfl, rfl, rfl, rfl⟩
  | ignored _ ha => exact Or.inr ⟨ha, rfl, rfl, rfl, rfl⟩
  | moved _ n s s' ha hs hmoved => exact Or.inr ⟨ha, rfl, rfl, rfl, rfl⟩

theorem senders_of_reading (t : Transport) (h : t.reading = true) : t.senders ≠ 0 := by
  unfold Transport.senders
  rw [if_pos h]
  omega

theorem live_step (n : Nat) (h h' : Sharing) (a : SharingAction) (hlive : h.Live n)
    (halive : Alive n a) (hstep : h.step a = some h') : h'.Live n := by
  have houtput : h'.transport.open_ = true ∧ h'.transport.reading = true := by
    rcases sameOutput_step h h' a hstep with ⟨b, hb, ht⟩ | ⟨_, hsame⟩
    · rw [hb] at halive
      have houtputs := Transport.outputs_step h.transport h'.transport b ht
      generalize h'.transport = t' at houtputs ⊢
      revert halive
      cases houtputs with
      | same _ _ _ hsame =>
          intro _
          rw [hsame.open_, hsame.reading]
          exact ⟨hlive.open_, hlive.reading⟩
      | emit caller payload => exact fun _ => ⟨hlive.open_, hlive.reading⟩
      | read m rest hstdout => exact fun _ => ⟨hlive.open_, hlive.reading⟩
      | readEnd _ hclosed =>
          -- The reader ends when the server has closed its output.
          rw [hlive.open_] at hclosed
          exact absurd hclosed (by simp)
      | exit | readError => exact fun halive => absurd halive (by simp [Alive])
    · rw [hsame.open_, hsame.reading]
      exact ⟨hlive.open_, hlive.reading⟩
  refine ⟨sound_step h h' a hlive.sound hstep, houtput.1, houtput.2, fun s' hs' => ?_⟩
  rcases touches_step h h' a hstep n with hsame | ⟨s, u, hs, hu, hacted⟩ | ⟨leaseId, _, _, hnew⟩
  · rw [hsame] at hs'
    exact hlive.forwards s' hs'
  · rw [hu, Option.some.injEq] at hs'
    rw [← hs']
    exact (taken_acted h.transport n s u a halive (senders_of_reading _ hlive.reading)
      (hlive.forwards s hs) hacted).2
  · rw [hnew, Option.some.injEq] at hs'
    rw [← hs']
    exact LeaseStream.forwards_connect leaseId _

/-! ### What a step does to what is coming -/

/-- What the server writes in a step. -/
def wrote : SharingAction → List Json
  | .transport a => Transport.wrote a
  | _ => []

/-- A step of the transport leaves the streams as they are. -/
theorem streams_transport (h h' : Sharing) (b : TransportAction)
    (hstep : h.step (.transport b) = some h') : h'.streams = h.streams := by
  simp only [step, Option.ite_none_right_eq_some, Option.map_eq_some_iff] at hstep
  rcases hstep with ⟨_, t, _, heq⟩
  rw [← heq]

/-- The reader moves a message from the server's output to the broadcast. -/
theorem coming_read (t : Transport) (s : LeaseStream) (m : Tagged Json)
    (rest : List (Tagged Json)) (hstdout : t.stdout = m :: rest)
    (hrx : s.rx.next ≤ t.outbound.sent.length)
    (hroom : (t.outbound.unread s.rx).length < t.outbound.capacity) :
    s.coming { t with
      stdout := rest
      outbound := t.outbound.send ⟨m.caller, LspMessage.fromJson m.content⟩ } = s.coming t := by
  have hpayload : ∀ u : Json, (LspMessage.fromJson u).payload = u := fun _ => rfl
  unfold LeaseStream.coming LeaseStream.taken Transport.written
  rw [Channel.kept_send _ _ _ hrx hroom, hstdout, List.map_append, List.map_cons, List.map_cons,
    List.map_nil, hpayload, ← List.append_assoc, List.append_assoc _ [m.content],
    List.singleton_append]

/-- With the broadcast full, a message is lost. -/
theorem coming_full (t : Transport) (s : LeaseStream) (m : Tagged Json)
    (rest : List (Tagged Json)) (hstdout : t.stdout = m :: rest)
    (hfull : t.outbound.capacity ≤ (t.outbound.unread s.rx).length) :
    (s.coming { t with
      stdout := rest
      outbound := t.outbound.send ⟨m.caller, LspMessage.fromJson m.content⟩ }).length <
      (s.coming t).length := by
  unfold LeaseStream.coming LeaseStream.taken Transport.written
  simp only [List.length_append, List.length_map, Channel.kept_length_send _ _ _ hfull, hstdout,
    List.length_cons]
  omega

/-- As long as client and server stay alive, and the broadcast is not full, what
    the server writes is added to what is coming, and nothing else happens to
    it. -/
theorem coming_step (n : Nat) (h h' : Sharing) (a : SharingAction) (hlive : h.Live n)
    (halive : Alive n a) (hstep : h.step a = some h') (s : LeaseStream)
    (hs : h.streams.get? n = some s)
    (hroom : a = .transport .read →
      (h.transport.outbound.unread s.rx).length < h.transport.outbound.capacity) :
    ∃ s', h'.streams.get? n = some s' ∧
      s'.coming h'.transport = s.coming h.transport ++ wrote a := by
  rcases sameOutput_step h h' a hstep with ⟨b, hb, ht⟩ | ⟨hb, hsame⟩
  · rw [hb] at hstep hroom halive ⊢
    refine ⟨s, by rw [streams_transport h h' b hstep]; exact hs, ?_⟩
    have houtputs := Transport.outputs_step h.transport h'.transport b ht
    generalize h'.transport = t' at houtputs ⊢
    revert hroom halive
    cases houtputs with
    | same b _ hb hsame =>
        intro _ _
        rw [wrote, hb, List.append_nil]
        simp only [LeaseStream.coming, Transport.written, hsame.outbound, hsame.stdout]
    | emit caller payload =>
        intro _ _
        simp only [LeaseStream.coming, Transport.written, wrote, Transport.wrote, List.map_append,
          List.map_cons, List.map_nil, List.append_assoc]
    | read m rest hstdout =>
        intro _ hroom
        rw [coming_read h.transport s m rest hstdout (hlive.sound.rx n s hs) (hroom rfl)]
        exact (List.append_nil _).symm
    | readEnd _ hclosed =>
        rw [hlive.open_] at hclosed
        exact absurd hclosed (by simp)
    | exit | readError => exact fun halive => absurd halive (by simp [Alive])
  · have hwrote : wrote a = [] := by
      cases a with
      | transport b => exact absurd rfl (hb b)
      | _ => rfl
    rw [hwrote, List.append_nil]
    rcases touches_step h h' a hstep n with hkeep | ⟨u, s', hu, hs', hacted⟩ | ⟨_, _, hfree, _⟩
    · refine ⟨s, by rw [hkeep]; exact hs, ?_⟩
      simp only [LeaseStream.coming, Transport.written, hsame.outbound, hsame.stdout]
    · rw [hs, Option.some.injEq] at hu
      rw [← hu] at hacted
      refine ⟨s', hs', ?_⟩
      have htaken := (taken_acted h.transport n s s' a halive
        (senders_of_reading _ hlive.reading) (hlive.forwards s hs) hacted).1
      simp only [LeaseStream.coming, Transport.written, hsame.outbound, hsame.stdout, htaken]
    · rw [hs] at hfree
      exact absurd hfree (by simp)

/-! ### What a client receives -/

/-- The stream's tasks move, and nobody else but the reader, which waits until the
    forwarding task has taken what was broadcast before. -/
def Patient (n : Nat) (h : Sharing) : SharingAction → Prop
  | .transport .read => ∀ s, h.streams.get? n = some s → h.transport.outbound.unread s.rx = []
  | .take k => k = n
  | .push k => k = n
  | .write k => k = n
  | _ => False

/-- Nothing is on its way to the stream's client. -/
structure Idle (t : Transport) (s : LeaseStream) : Prop where
  stdout : t.stdout = []
  unread : t.outbound.unread s.rx = []
  inHand : s.inHand = none
  queue : s.queue = []

/-- What the client of a stream has been written when its stream has caught up. -/
def Collects (h : Sharing) (n : Nat) (messages : List Json) : Prop :=
  ∃ as t s, Along step (Patient n) h as ∧ run step h as = some t ∧ t.streams.get? n = some s ∧
    Idle t.transport s ∧ payloads s.delivered = messages

theorem alive_of_patient (n : Nat) (h : Sharing) (a : SharingAction) (ha : Patient n h a) :
    Alive n a ∧ wrote a = [] := by
  cases a with
  | transport b =>
      cases b with
      | read => exact ⟨trivial, rfl⟩
      | _ => exact absurd ha (by simp [Patient])
  | take | push | write => exact ⟨trivial, rfl⟩
  | _ => exact absurd ha (by simp [Patient])

/-- What is coming to a client does not change while its stream catches up. -/
theorem coming_patient (n : Nat) (h h' : Sharing) (a : SharingAction) (hlive : h.Live n)
    (ha : Patient n h a) (hstep : h.step a = some h') (s : LeaseStream)
    (hs : h.streams.get? n = some s) :
    h'.Live n ∧ ∃ s', h'.streams.get? n = some s' ∧
      s'.coming h'.transport = s.coming h.transport := by
  rcases alive_of_patient n h a ha with ⟨halive, hwrote⟩
  have hroom : a = .transport .read →
      (h.transport.outbound.unread s.rx).length < h.transport.outbound.capacity := by
    intro hread
    rw [hread] at ha
    rw [ha s hs]
    exact hlive.sound.capacity
  rcases coming_step n h h' a hlive halive hstep s hs hroom with ⟨s', hs', hcoming⟩
  rw [hwrote, List.append_nil] at hcoming
  exact ⟨live_step n h h' a hlive halive hstep, s', hs', hcoming⟩

theorem coming_idle (t : Transport) (s : LeaseStream) (h : Idle t s) :
    s.coming t = payloads s.delivered := by
  have hkept : t.outbound.kept s.rx = [] := by
    rw [Channel.kept_of_not_lags, h.unread]
    intro hlags
    have hlength := Channel.unread_length t.outbound s.rx
    rw [h.unread, List.length_nil] at hlength
    unfold Channel.Lags at hlags
    omega
  unfold LeaseStream.coming LeaseStream.taken Transport.written
  rw [hkept, h.stdout, h.inHand, h.queue, Option.toList_none]
  simp only [List.append_nil, List.map_nil]

/-- What is left to do until the stream has caught up. -/
def lag (n : Nat) (h : Sharing) : Nat :=
  5 * h.transport.stdout.length + taskWeight n h

/-- As long as something is on its way, the stream's tasks or the reader bring it
    further. -/
theorem patient_progress (n : Nat) (messages : List Json) (h : Sharing)
    (hcoming : h.Live n ∧ ∃ s, h.streams.get? n = some s ∧ s.coming h.transport = messages) :
    (∃ s, h.streams.get? n = some s ∧ Idle h.transport s ∧ payloads s.delivered = messages) ∨
      ∃ a h', Patient n h a ∧ h.step a = some h' ∧
        (h'.Live n ∧ ∃ s, h'.streams.get? n = some s ∧ s.coming h'.transport = messages) ∧
        lag n h' < lag n h := by
  rcases hcoming with ⟨hlive, s, hs, hcoming⟩
  have hforwards := hlive.forwards s hs
  have hkeep : ∀ a h', Patient n h a → h.step a = some h' →
      h'.Live n ∧ ∃ s, h'.streams.get? n = some s ∧ s.coming h'.transport = messages := by
    intro a h' ha hstep
    rcases coming_patient n h h' a hlive ha hstep s hs with ⟨hlive', s', hs', hsame⟩
    exact ⟨hlive', s', hs', by rw [hsame, hcoming]⟩
  by_cases htodo : s.queue ≠ [] ∨ s.runtimeTask = .running ∧
      (s.inHand ≠ none ∨ h.transport.outbound.unread s.rx ≠ [])
  · -- one of the stream's own tasks has something to do
    right
    rcases LeaseStream.task_progress h.transport.outbound h.transport.senders s
      hforwards.writerTask htodo with ⟨s', hmove, hless⟩
    have hnext : ∃ a, OfTasks n a ∧ h.step a = some { h with streams := h.streams.set n s' } := by
      rcases hmove with hmove | hmove | hmove
      · exact ⟨.write n, rfl, by simp only [step, move, hs, hmove, Option.map_some]⟩
      · exact ⟨.push n, rfl, by simp only [step, move, hs, hmove, Option.map_some]⟩
      · exact ⟨.take n, rfl, by simp only [step, move, hs, hmove, Option.map_some]⟩
    rcases hnext with ⟨a, ha, hstep⟩
    have hpatient : Patient n h a := by
      cases a with
      | take | push | write => exact ha
      | _ => exact absurd ha (by simp [OfTasks])
    refine ⟨a, _, hpatient, hstep, hkeep a _ hpatient hstep, ?_⟩
    unfold lag taskWeight
    simp only [hs, Table.get?_set_self]
    omega
  -- None of the three tasks can move: the stream is empty.
  · have hqueue : s.queue = [] := by
      by_contra hqueue
      exact htodo (Or.inl hqueue)
    have hhand : s.inHand = none := by
      by_contra hhand
      exact htodo (Or.inr ⟨hforwards.runtimeTask, Or.inl hhand⟩)
    have hunread : h.transport.outbound.unread s.rx = [] := by
      by_contra hunread
      exact htodo (Or.inr ⟨hforwards.runtimeTask, Or.inr hunread⟩)
    cases hstdout : h.transport.stdout with
    | nil =>
        have hidle : Idle h.transport s := ⟨hstdout, hunread, hhand, hqueue⟩
        exact Or.inl ⟨s, hs, hidle, by rw [← coming_idle h.transport s hidle, hcoming]⟩
    | cons m rest =>
        -- The reader broadcasts the next message.
        right
        have hpatient : Patient n h (.transport .read) := by
          intro u hu
          rw [hs, Option.some.injEq] at hu
          rw [← hu]
          exact hunread
        have hstep : h.step (.transport .read) = some { h with transport := { h.transport with
            stdout := rest
            outbound := h.transport.outbound.send
              ⟨m.caller, LspMessage.fromJson m.content⟩ } } := by
          simp only [step, mayMove, if_true, Transport.step, hlive.reading, hstdout,
            Option.map_some]
        refine ⟨_, _, hpatient, hstep, hkeep _ _ hpatient hstep, ?_⟩
        -- The receiver has read everything, so the broadcast drops nothing it needs.
        have hroom : (h.transport.outbound.unread s.rx).length <
            h.transport.outbound.capacity := by
          rw [hunread]
          exact hlive.sound.capacity
        have hkept := Channel.kept_send h.transport.outbound
          ⟨m.caller, LspMessage.fromJson m.content⟩ s.rx (hlive.sound.rx n s hs) hroom
        have hlags := Channel.not_lags_of_room h.transport.outbound s.rx hroom
        have hlags' := Channel.not_lags_send h.transport.outbound
          ⟨m.caller, LspMessage.fromJson m.content⟩ s.rx hroom
        unfold lag taskWeight LeaseStream.weight
        simp only [hs, hstdout, hkept, if_neg hlags, if_neg hlags', List.length_append,
          List.length_cons, List.length_nil]
        omega

/-- A client receives exactly what is coming. -/
theorem collects_iff (n : Nat) (messages : List Json) (h : Sharing)
    (hlive : h.Live n) (s : LeaseStream) (hs : h.streams.get? n = some s) :
    h.Collects n messages ↔ s.coming h.transport = messages := by
  constructor
  · rintro ⟨as, t, u, halong, hrun, hu, hidle, hpayloads⟩
    have hlast : t.Live n ∧ ∃ v, t.streams.get? n = some v ∧
        v.coming t.transport = s.coming h.transport := by
      refine run_invariant (C := Patient n) (I := fun k : Sharing => k.Live n ∧ ∃ v,
        k.streams.get? n = some v ∧ v.coming k.transport = s.coming h.transport) ?_ as h t hrun
        ⟨hlive, s, hs, rfl⟩ halong
      rintro k a k' ⟨hlive, v, hv, hsame⟩ hstep ha
      rcases coming_patient n k k' a hlive ha hstep v hv with ⟨hlive', v', hv', hsame'⟩
      exact ⟨hlive', v', hv', by rw [hsame', hsame]⟩
    rcases hlast with ⟨_, v, hv, hsame⟩
    rw [hu, Option.some.injEq] at hv
    rw [← hsame, ← hv, coming_idle t.transport u hidle, hpayloads]
  · intro hcoming
    rcases exists_along_of_progress (lag n) (patient_progress n messages) h
      ⟨hlive, s, hs, hcoming⟩ with ⟨as, t, halong, hrun, u, hu, hidle, hpayloads⟩
    exact ⟨as, t, u, halong, hrun, hu, hidle, hpayloads⟩

end Sharing

namespace Delivery

/-- The stream's client, once it is connected, receives exactly what the server has
    written since the client's `AttachOk`. -/
def Lossless (n : Nat) (d : Delivery) : Prop :=
  (d.sharing.streams.get? n).isSome → ∀ messages, d.owed.get? n = some messages →
    d.sharing.Collects n messages

/-- The client and the server stay alive. -/
def Alive (n : Nat) : DeliveryAction → Prop
  | .sharing a => Sharing.Alive n a
  | .attachOk _ => True

/-- The client connects when the reader has read all that was written before its
    `AttachOk` and nothing that was written since. And the reader broadcasts
    when the forwarding task is not behind by the whole capacity of the
    channel. -/
def KeepsAll (n : Nat) (d : Delivery) : DeliveryAction → Prop
  | .sharing (.connect k _) => k = n → d.owed.get? n = some d.sharing.transport.written
  | .sharing (.transport .read) => ∀ s, d.sharing.streams.get? n = some s →
      (d.sharing.transport.outbound.unread s.rx).length < d.sharing.transport.outbound.capacity
  | _ => True

/-- A client that is connected has been answered. -/
def Answered (n : Nat) (d : Delivery) : Prop :=
  ∀ s, d.sharing.streams.get? n = some s → (d.owed.get? n).isSome

/-- What is coming to the client is what it is owed. -/
def Exact (n : Nat) (d : Delivery) : Prop :=
  ∀ s, d.sharing.streams.get? n = some s →
    d.owed.get? n = some (s.coming d.sharing.transport)

theorem lossless_iff_exact (n : Nat) (d : Delivery) (hlive : d.sharing.Live n)
    (hanswered : d.Answered n) : d.Lossless n ↔ d.Exact n := by
  constructor
  · intro hlossless s hs
    rcases Option.isSome_iff_exists.mp (hanswered s hs) with ⟨messages, howed⟩
    have hcollects := hlossless (by rw [hs]; rfl) messages howed
    rw [(Sharing.collects_iff n messages d.sharing hlive s hs).mp hcollects]
    exact howed
  · intro hexact hsome messages howed
    rcases Option.isSome_iff_exists.mp hsome with ⟨s, hs⟩
    rw [hexact s hs, Option.some.injEq] at howed
    exact (Sharing.collects_iff n messages d.sharing hlive s hs).mpr howed

theorem note_get? (d : Delivery) (a : SharingAction) (n : Nat) :
    (d.note a).get? n = (d.owed.get? n).map fun messages => messages ++ Sharing.wrote a := by
  have hsame : (d.owed.get? n).map (fun messages => messages ++ []) = d.owed.get? n := by
    simp only [List.append_nil, Option.map_id']
  cases a with
  | transport b =>
      cases b with
      | emit caller payload => exact Table.get?_mapValues _ _ n
      | _ => exact hsame.symm
  | _ => exact hsame.symm

theorem step_cases (d d' : Delivery) (a : DeliveryAction) (hstep : d.step a = some d') :
    (∃ n, a = .attachOk n ∧ d.owed.get? n = none ∧ d' = { d with owed := d.owed.set n [] }) ∨
      ∃ b, a = .sharing b ∧ d.mayMove b = true ∧ d.sharing.step b = some d'.sharing ∧
        d'.owed = d.note b := by
  cases a with
  | attachOk n =>
      simp only [step, Option.ite_none_right_eq_some, Option.some.injEq] at hstep
      exact Or.inl ⟨n, rfl, hstep.1.2, hstep.2.symm⟩
  | sharing b =>
      simp only [step, Option.ite_none_right_eq_some, Option.map_eq_some_iff] at hstep
      rcases hstep with ⟨hmove, h, hh, heq⟩
      rw [← heq]
      exact Or.inr ⟨b, rfl, hmove, hh, rfl⟩

theorem live_step (n : Nat) (d d' : Delivery) (a : DeliveryAction) (hlive : d.sharing.Live n)
    (halive : Alive n a) (hstep : d.step a = some d') : d'.sharing.Live n := by
  rcases step_cases d d' a hstep with ⟨k, _, _, heq⟩ | ⟨b, hb, _, hh, _⟩
  · rw [heq]
    exact hlive
  · rw [hb] at halive
    exact Sharing.live_step n d.sharing d'.sharing b hlive halive hh

theorem answered_step (n : Nat) (d d' : Delivery) (a : DeliveryAction)
    (hanswered : d.Answered n) (hstep : d.step a = some d') : d'.Answered n := by
  intro s' hs'
  rcases step_cases d d' a hstep with ⟨k, _, _, heq⟩ | ⟨b, hb, hmove, hh, howed⟩
  · rw [heq] at hs' ⊢
    have hold := hanswered s' hs'
    rw [Table.get?_set]
    split
    · rfl
    · exact hold
  · rw [howed, note_get?, Option.isSome_map]
    rcases Sharing.touches_step d.sharing d'.sharing b hh n with hsame | ⟨s, _, hs, _⟩ |
      ⟨leaseId, hconnect, _⟩
    · rw [hsame] at hs'
      exact hanswered s' hs'
    · exact hanswered s hs
    · rw [hconnect] at hmove
      exact hmove

/-- A client that has just connected is coming what the reader has not read. -/
theorem coming_connect (t : Transport) (leaseId : String) :
    (LeaseStream.connect leaseId t.outbound.subscribe).coming t = t.written := by
  have hkept : t.outbound.kept t.outbound.subscribe = [] := by
    rw [Channel.kept_of_not_lags _ _ (Channel.not_lags_subscribe _), Channel.unread_subscribe]
  unfold LeaseStream.coming LeaseStream.taken LeaseStream.connect
  simp only [hkept]
  rfl

/-- An answer owes nothing yet. -/
theorem exact_attachOk (n k : Nat) (d : Delivery) (hexact : d.Exact n)
    (hnew : d.owed.get? k = none) : Exact n { d with owed := d.owed.set k [] } := by
  intro s hs
  have hold := hexact s hs
  have hk : n ≠ k := by
    intro hk
    rw [hk, hnew] at hold
    exact absurd hold (by simp)
  rw [Table.get?_set_ne _ _ _ _ hk]
  exact hold

theorem exact_keep (n : Nat) (d d' : Delivery) (b : SharingAction) (hlive : d.sharing.Live n)
    (halive : Sharing.Alive n b) (hexact : d.Exact n) (hh : d.sharing.step b = some d'.sharing)
    (howed : d'.owed = d.note b) (hkeeps : d.KeepsAll n (.sharing b)) : d'.Exact n := by
  intro s' hs'
  rw [howed, note_get?]
  have hconnected : ∀ s, d.sharing.streams.get? n = some s →
      (d.owed.get? n).map (fun messages => messages ++ Sharing.wrote b) =
        some (s'.coming d'.sharing.transport) := by
    intro s hs
    have hroom : b = .transport .read →
        (d.sharing.transport.outbound.unread s.rx).length <
          d.sharing.transport.outbound.capacity := by
      intro hread
      rw [hread] at hkeeps
      exact hkeeps s hs
    rcases Sharing.coming_step n d.sharing d'.sharing b hlive halive hh s hs hroom with
      ⟨u, hu, hcoming⟩
    rw [hs', Option.some.injEq] at hu
    rw [hexact s hs, hu, hcoming, Option.map_some]
  rcases Sharing.touches_step d.sharing d'.sharing b hh n with hsame | ⟨s, _, hs, _⟩ |
    ⟨leaseId, hconnect, _, hnew⟩
  · exact hconnected s' (by rw [← hsame]; exact hs')
  · exact hconnected s hs
  · -- the client has connected: the condition says what it is owed
    rw [hconnect] at hkeeps hh ⊢
    rw [hs', Option.some.injEq] at hnew
    have hwritten : s'.coming d'.sharing.transport = d.sharing.transport.written := by
      simp only [Sharing.step, Option.ite_none_right_eq_some, Option.some.injEq] at hh
      rw [hnew, ← hh.2]
      exact coming_connect d.sharing.transport leaseId
    have howes : d.owed.get? n = some d.sharing.transport.written := hkeeps rfl
    rw [howes, hwritten]
    exact congrArg some (List.append_nil _)

theorem exact_need (n : Nat) (d d' : Delivery) (b : SharingAction) (hexact : d.Exact n)
    (hh : d.sharing.step b = some d'.sharing) (howed : d'.owed = d.note b)
    (hexact' : d'.Exact n) : d.KeepsAll n (.sharing b) := by
  cases b with
  | connect k leaseId =>
      intro hk
      rw [hk] at hh
      simp only [Sharing.step, Option.ite_none_right_eq_some, Option.some.injEq] at hh
      have hnew : d'.sharing.streams.get? n =
          some (.connect leaseId d.sharing.transport.outbound.subscribe) := by
        rw [← hh.2]
        exact Table.get?_set_self _ _ _
      have hlast := hexact' _ hnew
      rw [howed, ← hh.2] at hlast
      rw [coming_connect d.sharing.transport leaseId] at hlast
      exact hlast
  | transport a =>
      cases a with
      | read =>
          intro s hs
          by_contra hfull
          rw [Nat.not_lt] at hfull
          have hs' : d'.sharing.streams.get? n = some s := by
            rw [Sharing.streams_transport _ _ _ hh]
            exact hs
          -- What is coming has become shorter, and what is owed has not.
          have hlast := hexact' s hs'
          rw [howed, note_get?, hexact s hs, Option.map_some, Option.some.injEq] at hlast
          have hlength := congrArg List.length hlast
          simp only [Sharing.step, Option.ite_none_right_eq_some, Option.map_eq_some_iff] at hh
          rcases hh with ⟨_, t, ht, heq⟩
          rcases Transport.read_cases d.sharing.transport t ht with ⟨m, rest, hstdout, ht⟩
          have hless := Sharing.coming_full d.sharing.transport s m rest hstdout hfull
          have hsame : (s.coming d.sharing.transport ++ []).length = (s.coming t).length := by
            rw [← heq] at hlength
            exact hlength
          rw [← ht] at hless
          rw [List.append_nil] at hsame
          omega
      | _ => trivial
  | _ => trivial

/-- Along a run in which a stream's client and the server stay alive, the client,
    once it is connected, receives exactly what the server has written since the
    client's `AttachOk`, in every state, if and only if the client connects when
    just that has not been read by the reader, and the reader broadcasts only
    when the stream is not behind by the whole capacity of the channel. -/
theorem lossless_iff (n : Nat) (as : List DeliveryAction) (halive : ∀ a ∈ as, Alive n a) :
    Always step (Lossless n) init as ↔ Along step (KeepsAll n) init as := by
  have hlive : init.sharing.Live n :=
    ⟨Sharing.sound_init, rfl, rfl, fun s hs => absurd hs (by simp [init, Sharing.init])⟩
  have hanswered : init.Answered n := fun s hs => absurd hs (by simp [init, Sharing.init])
  have hlossless : init.Lossless n := fun hsome => absurd hsome (by simp [init, Sharing.init])
  refine always_iff_along (I := fun d => d.sharing.Live n ∧ d.Answered n) ?_ ?_ as init
    ⟨hlive, hanswered⟩ hlossless (along_of_forall as init halive)
  · rintro d a d' ⟨hlive, hanswered⟩ hP hstep halive hkeeps
    have hlive' := live_step n d d' a hlive halive hstep
    have hanswered' := answered_step n d d' a hanswered hstep
    have hexact := (lossless_iff_exact n d hlive hanswered).mp hP
    refine ⟨⟨hlive', hanswered'⟩, (lossless_iff_exact n d' hlive' hanswered').mpr ?_⟩
    rcases step_cases d d' a hstep with ⟨k, _, hnew, heq⟩ | ⟨b, hb, _, hh, howed⟩
    · rw [heq]
      exact exact_attachOk n k d hexact hnew
    · rw [hb] at halive hkeeps
      exact exact_keep n d d' b hlive halive hexact hh howed hkeeps
  · rintro d a d' ⟨hlive, hanswered⟩ hP hstep halive hP'
    have hexact := (lossless_iff_exact n d hlive hanswered).mp hP
    have hexact' := (lossless_iff_exact n d' (live_step n d d' a hlive halive hstep)
      (answered_step n d d' a hanswered hstep)).mp hP'
    rcases step_cases d d' a hstep with ⟨k, hk, _, _⟩ | ⟨b, hb, _, hh, howed⟩
    · rw [hk]
      trivial
    · rw [hb]
      exact exact_need n d d' b hexact hh howed hexact'

/-- A client connects after the server has written a message that follows the
    client's `AttachOk`, and the reader has broadcast it. -/
def connectsLate : List DeliveryAction :=
  [.sharing (.transport (.clone .session 0)), .attachOk 0,
    .sharing (.transport (.emit none (.obj [("jsonrpc", .str "2.0"),
      ("method", .str "window/logMessage")]))),
    .sharing (.transport .read), .sharing (.connect 0 "lease_1")]

theorem connectsLate_isSome : (run step init connectsLate).isSome = true := by
  decide

theorem connectsLate_alive : ∀ a ∈ connectsLate, Alive 0 a := by
  intro a ha
  simp only [connectsLate, List.mem_cons, List.not_mem_nil, or_false] at ha
  rcases ha with ha | ha | ha | ha | ha <;> rw [ha] <;> trivial

theorem lossless_iff_connectsLate :
    Always step (Lossless 0) init connectsLate ↔ Along step (KeepsAll 0) init connectsLate :=
  lossless_iff 0 connectsLate connectsLate_alive

/-- The client is connected, nothing is on its way to it, and it has not received
    the message. -/
theorem lost_before_connect :
    ¬ ∀ (n : Nat) (as : List DeliveryAction) (d : Delivery), (∀ a ∈ as, Alive n a) →
      run step init as = some d → ∀ s, d.sharing.streams.get? n = some s →
      Sharing.Idle d.sharing.transport s → d.owed.get? n = some (payloads s.delivered) := by
  intro hall
  have howed := hall 0 connectsLate ((run step init connectsLate).get connectsLate_isSome)
    connectsLate_alive (Option.some_get _).symm _ rfl ⟨rfl, rfl, rfl, rfl⟩
  exact absurd howed (by decide)

end Delivery

end Lspee
