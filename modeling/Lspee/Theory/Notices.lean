import Lspee.Core.Notices

/-!
# Who Learns of an Eviction

Whether those that hold a lease on a session learn that it has been evicted for
its memory: `Noticed` asks that the first request that fails on the lease after
the mark is answered with the eviction's code, and that a dedicated stream whose
client is connected delivers the error once the monitor has sent it.

Neither the notice nor the event waits for those it is for. The notice is in the
record of the session, which is gone as soon as the runtime has been shut down,
and the lease with it; an attach in between takes the mark off again. The event
goes to the streams whose clients are connected when it is sent. So the code is
what a request is answered with as long as its lookups find the lease and the
marked session, and the error is what a stream delivers if its client connected
before it was sent: `noticed_iff` says that this is all there is to it.

For a stream, being told is one number: how many events its session had sent
when the client connected, against how many it has sent by now (`hears_iff`).

## Main definitions

* `Announces`: An answer with the eviction's code.
* `Listening`, `Heard`: A stream that delivers, and what its tasks keep.
* `Hears`: What a stream's own tasks lead to.
* `Noticed`: Those that hold a lease learn of the eviction.
* `TellCond`, `NoticeCond`: The condition on a step.

## Theorems

* `resume_forwardAnswer`: The control connection writes the answer.
* `announces_iff`: When an answer has the code.
* `heard_moved`, `heard_send`: What a step does to a stream.
* `hears_iff`: When a stream delivers the error.
* `noticed_iff`: The condition is exact over whole runs.
* `eviction_unnoticed`: Runs that break it.
-/

namespace Lspee

open Transition Broadcast

/-- The answer says that the session was evicted, and that the request can be
    tried again. -/
def Announces (kind : ForwardKind) (result : Except String (Option Json)) : Prop :=
  ∀ id, ∃ message, forwardAnswer kind id result =
    some (errorEnvelope id evictedCode message true none)

/-- A control connection writes the answer to a failed `Call` or `Notify` once
    the registry has returned. -/
theorem resume_forwardAnswer (s : Control) (kind k : ForwardKind) (id : Option String)
    (leaseId i : String) (call : CallId) (m : Json) (result : Except String (Option Json))
    (answer : ControlEnvelope)
    (hpc : kind = .call ∧ s.pc = .calling id leaseId call ∨
      kind = .notify ∧ s.pc = .notifying id leaseId call)
    (hcall : s.world.calls.get? call = some (.forward k i m (.returned result)))
    (hanswer : forwardAnswer kind id result = some answer) :
    s.resume = some (s.write answer false) := by
  rcases hpc with ⟨hkind, hpc⟩ | ⟨hkind, hpc⟩
  · rw [hkind] at hanswer
    unfold Control.resume
    simp only [hpc, hcall]
    cases result with
    | error message => rw [Option.some.inj hanswer.symm]
    | ok response =>
        cases response with
        | none => rw [Option.some.inj hanswer.symm]
        | some response => exact absurd hanswer (by simp [forwardAnswer])
  · rw [hkind] at hanswer
    unfold Control.resume
    simp only [hpc, hcall]
    cases result with
    | error message => rw [Option.some.inj hanswer.symm]
    | ok response =>
        cases response with
        | none => rw [Option.some.inj hanswer.symm]
        | some response => exact absurd hanswer (by simp [forwardAnswer])

/-- The code of an error is in its payload. -/
theorem code_of_errorEnvelope (id id' : Option String) (code code' message message' : String)
    (retryable retryable' : Bool)
    (h : errorEnvelope id code message retryable none =
      errorEnvelope id' code' message' retryable' none) : code = code' := by
  simp only [errorEnvelope, ControlEnvelope.mk.injEq] at h
  have hpayload : code = code' ∧ message = message' ∧ retryable = retryable' := by
    simpa using h.2.2.2
  exact hpayload.1

/-- A request is answered with the code if it failed with a text that contains
    it. -/
theorem announces_iff (kind : ForwardKind) (result : Except String (Option Json)) :
    Announces kind result ↔
      ∃ message, result = .error message ∧ containsText message evictedCode = true := by
  constructor
  · intro h
    rcases h none with ⟨text, htext⟩
    cases result with
    | ok response =>
        cases response with
        | some response => exact absurd htext (by simp [forwardAnswer])
        | none =>
            rw [forwardAnswer, Option.some.injEq, leaseNotFound] at htext
            exact absurd (code_of_errorEnvelope _ _ _ _ _ _ _ _ htext) (by decide)
    | error message =>
        refine ⟨message, rfl, ?_⟩
        by_contra hcode
        rw [forwardAnswer, Option.some.injEq, forwardError] at htext
        have hcode' : ¬containsText message "E_SESSION_EVICTED_MEMORY" = true := hcode
        rw [if_neg hcode'] at htext
        -- None of the other codes is the eviction's.
        split at htext
        · exact absurd (code_of_errorEnvelope _ _ _ _ _ _ _ _ htext) (by decide)
        · split at htext
          · exact absurd (code_of_errorEnvelope _ _ _ _ _ _ _ _ htext) (by decide)
          · exact absurd (code_of_errorEnvelope _ _ _ _ _ _ _ _ htext) (by decide)
  · rintro ⟨message, hresult, hcode⟩ id
    refine ⟨message, ?_⟩
    have hcode' : containsText message "E_SESSION_EVICTED_MEMORY" = true := hcode
    rw [hresult, forwardAnswer, forwardError, if_pos hcode']
    rfl

namespace Listener

/-- The client is connected, and what is written reaches it. -/
def Listening (st : Listener) : Prop :=
  st.connected = true ∧ st.writerTask = .running

/-- The error is queued for the client, or has been written. -/
def Shows (st : Listener) (payload : StreamErrorPayload) : Prop :=
  .streamError payload ∈ st.queue ∨ .streamError payload ∈ st.delivered

/-- The event task has an event only if one was sent since the client connected,
    and ends only when it has queued it. -/
structure Heard (events : Channel StreamErrorPayload) (st : Listener) : Prop where
  bound : st.since ≤ events.sent.length
  polling : ∀ rx, st.eventTask = .polling rx → st.since ≤ rx.next ∧
    (rx.next = st.since ∨ rx.next < events.sent.length)
  sending : ∀ payload, st.eventTask = .sending payload →
    st.since < events.sent.length ∧ payload ∈ events.sent
  shown : ∀ payload, st.Shows payload → st.since < events.sent.length ∧ payload ∈ events.sent
  ended : st.Listening → st.eventTask = .ended → ∃ payload, st.Shows payload

/-- A step of one of the stream's tasks, or of its client. -/
inductive Moved (events : Channel StreamErrorPayload) (st : Listener) : Listener → Prop where
  | poll (st' : Listener) (h : st.poll events = some st') : Moved events st st'
  | push (st' : Listener) (h : st.push = some st') : Moved events st st'
  | forward (payload : Json) (st' : Listener) (h : st.forward payload = some st') :
      Moved events st st'
  | write (st' : Listener) (h : st.write = some st') : Moved events st st'
  | writeFails : Moved events st st.writeFails
  | eof : Moved events st st.eof

/-! ### What the tasks do -/

/-- A turn of the event task's loop skips what was lost, or takes the oldest
    event. -/
theorem poll_cases (st st' : Listener) (events : Channel StreamErrorPayload)
    (h : st.poll events = some st') :
    ∃ rx, st.eventTask = .polling rx ∧
      (events.Lags rx ∧ st' = { st with
          eventTask := .polling ⟨events.sent.length - events.capacity⟩ } ∨
        ∃ payload rest, events.unread rx = payload :: rest ∧
          st' = { st with eventTask := .sending payload }) := by
  unfold poll at h
  cases htask : st.eventTask with
  | sending payload => simp only [htask, reduceCtorEq] at h
  | ended => simp only [htask, reduceCtorEq] at h
  | polling rx =>
      simp only [htask] at h
      refine ⟨rx, rfl, ?_⟩
      by_cases hlags : events.Lags rx
      · rw [Channel.recv_lagged _ _ _ hlags] at h
        exact Or.inl ⟨hlags, (Option.some.inj h).symm⟩
      · cases hunread : events.unread rx with
        | cons payload rest =>
            rw [Channel.recv_value _ _ _ payload rest hlags hunread] at h
            exact Or.inr ⟨payload, rest, rfl, (Option.some.inj h).symm⟩
        | nil =>
            rw [Channel.recv_drained _ _ _ hlags hunread Nat.one_ne_zero] at h
            exact absurd h (by simp only [reduceCtorEq, not_false_eq_true])

theorem push_cases (st st' : Listener) (h : st.push = some st') :
    ∃ payload, st.eventTask = .sending payload ∧
      (st.writerTask = .stopped ∧ st' = { st with eventTask := .ended } ∨
        st' = { st with eventTask := .ended, queue := st.queue ++ [.streamError payload] }) := by
  unfold push at h
  cases htask : st.eventTask with
  | polling rx => simp only [htask, reduceCtorEq] at h
  | ended => simp only [htask, reduceCtorEq] at h
  | sending payload =>
      simp only [htask] at h
      refine ⟨payload, rfl, ?_⟩
      by_cases hwriter : st.writerTask = .stopped
      · rw [if_pos hwriter] at h
        exact Or.inl ⟨hwriter, (Option.some.inj h).symm⟩
      · rw [if_neg hwriter, Option.ite_none_right_eq_some, Option.some.injEq] at h
        exact Or.inr h.2.symm

theorem write_cases (st st' : Listener) (h : st.write = some st') :
    ∃ frame rest, st.writerTask = .running ∧ st.queue = frame :: rest ∧
      st' = { st with queue := rest, delivered := st.delivered ++ [frame] } := by
  unfold write at h
  cases hwriter : st.writerTask with
  | stopped => simp only [hwriter, reduceCtorEq] at h
  | running =>
      cases hqueue : st.queue with
      | nil => simp only [hwriter, hqueue, reduceCtorEq] at h
      | cons frame rest =>
          simp only [hwriter, hqueue] at h
          exact ⟨frame, rest, rfl, rfl, (Option.some.inj h).symm⟩

/-- Writing a frame shows the same errors. -/
theorem shows_write (st : Listener) (frame : Outgoing) (rest : List Outgoing)
    (payload : StreamErrorPayload) (hqueue : st.queue = frame :: rest) :
    Shows { st with queue := rest, delivered := st.delivered ++ [frame] } payload ↔
      st.Shows payload := by
  simp only [Shows, hqueue, List.mem_append, List.mem_cons, List.not_mem_nil, or_false]
  tauto

/-! ### What a step does to what a stream has heard -/

theorem heard_poll (st st' : Listener) (events : Channel StreamErrorPayload)
    (hcapacity : 0 < events.capacity) (hst : Heard events st) (h : st.poll events = some st') :
    Heard events st' := by
  rcases poll_cases st st' events h with ⟨rx, htask, ⟨hlags, hst'⟩ | ⟨payload, rest, hunread, hst'⟩⟩
  · rw [hst']
    refine ⟨hst.bound, fun rx' hrx' => ?_, fun p hp => absurd hp (by simp), hst.shown,
      fun _ hend => absurd hend (by simp)⟩
    have hpolling := (hst.polling rx htask).1
    rw [EventPc.polling.injEq] at hrx'
    unfold Channel.Lags at hlags
    rw [← hrx']
    simp only
    omega
  · have hlt := Channel.next_lt_of_unread events rx payload rest hunread
    have hmem : payload ∈ events.sent := by
      refine List.mem_of_mem_drop (i := rx.next) ?_
      have hdrop : events.sent.drop rx.next = payload :: rest := hunread
      rw [hdrop]
      exact List.mem_cons_self
    have hsince := lt_of_le_of_lt (hst.polling rx htask).1 hlt
    rw [hst']
    refine ⟨hst.bound, fun rx' hrx' => absurd hrx' (by simp), fun p hp => ?_, hst.shown,
      fun _ hend => absurd hend (by simp)⟩
    rw [EventPc.sending.injEq] at hp
    rw [← hp]
    exact ⟨hsince, hmem⟩

theorem heard_push (st st' : Listener) (events : Channel StreamErrorPayload)
    (hst : Heard events st) (h : st.push = some st') : Heard events st' := by
  rcases push_cases st st' h with ⟨payload, htask, ⟨hwriter, hst'⟩ | hst'⟩
  · rw [hst']
    refine ⟨hst.bound, fun rx hrx => absurd hrx (by simp), fun p hp => absurd hp (by simp),
      hst.shown, fun hlistening _ => ?_⟩
    have hrunning : st.writerTask = .running := hlistening.2
    rw [hwriter] at hrunning
    exact absurd hrunning (by simp)
  · rw [hst']
    refine ⟨hst.bound, fun rx hrx => absurd hrx (by simp), fun p hp => absurd hp (by simp),
      fun p hp => ?_, fun _ _ => ⟨payload, Or.inl (List.mem_append_right _ List.mem_cons_self)⟩⟩
    rcases hp with hp | hp
    · rcases List.mem_append.mp hp with hp | hp
      · exact hst.shown p (Or.inl hp)
      · rw [List.mem_singleton, Outgoing.streamError.injEq] at hp
        rw [hp]
        exact hst.sending payload htask
    · exact hst.shown p (Or.inr hp)

theorem heard_write (st st' : Listener) (events : Channel StreamErrorPayload)
    (hst : Heard events st) (h : st.write = some st') : Heard events st' := by
  rcases write_cases st st' h with ⟨frame, rest, hwriter, hqueue, hst'⟩
  rw [hst']
  refine ⟨hst.bound, hst.polling, hst.sending, fun p hp => ?_, fun hlistening hend => ?_⟩
  · exact hst.shown p ((shows_write st frame rest p hqueue).mp hp)
  · rcases hst.ended hlistening hend with ⟨p, hp⟩
    exact ⟨p, (shows_write st frame rest p hqueue).mpr hp⟩

theorem heard_forward (st st' : Listener) (events : Channel StreamErrorPayload) (payload : Json)
    (hst : Heard events st) (h : st.forward payload = some st') : Heard events st' := by
  unfold forward at h
  rw [Option.ite_none_right_eq_some, Option.some.injEq] at h
  -- The frame is no error.
  have hshows : ∀ p, Shows { st with queue := st.queue ++ [.lspOut payload] } p ↔ st.Shows p := by
    intro p
    simp [Shows]
  rw [← h.2]
  refine ⟨hst.bound, hst.polling, hst.sending, fun p hp => hst.shown p ((hshows p).mp hp),
    fun hlistening hend => ?_⟩
  rcases hst.ended hlistening hend with ⟨p, hp⟩
  exact ⟨p, (hshows p).mpr hp⟩

/-- What a stream has heard is kept true by all that happens to it. -/
theorem heard_moved (st st' : Listener) (events : Channel StreamErrorPayload)
    (hcapacity : 0 < events.capacity) (hst : Heard events st) (h : Moved events st st') :
    Heard events st' := by
  cases h with
  | poll st' h => exact heard_poll st st' events hcapacity hst h
  | push st' h => exact heard_push st st' events hst h
  | forward payload st' h => exact heard_forward st st' events payload hst h
  | write st' h => exact heard_write st st' events hst h
  | writeFails =>
      refine ⟨hst.bound, hst.polling, hst.sending, fun p hp => ?_, fun hlistening => ?_⟩
      · exact hst.shown p (hp.imp_left fun hmem => absurd hmem List.not_mem_nil)
      · exact absurd hlistening.2 (by simp [writeFails])
  | eof =>
      refine ⟨hst.bound, fun rx hrx => absurd hrx (by simp [eof]),
        fun p hp => absurd hp (by simp [eof]), hst.shown, fun hlistening => ?_⟩
      exact absurd hlistening.1 (by simp [eof])

/-- A stream's session, and what it had sent when the client connected, stay what
    they are, and a stream that delivers has delivered all along. -/
theorem moved_same (st st' : Listener) (events : Channel StreamErrorPayload)
    (h : Moved events st st') :
    st'.runtime = st.runtime ∧ st'.since = st.since ∧ (st'.Listening → st.Listening) := by
  cases h with
  | poll st' h =>
      rcases poll_cases st st' events h with ⟨rx, _, ⟨_, hst'⟩ | ⟨payload, rest, _, hst'⟩⟩
      · rw [hst']
        exact ⟨rfl, rfl, id⟩
      · rw [hst']
        exact ⟨rfl, rfl, id⟩
  | push st' h =>
      rcases push_cases st st' h with ⟨payload, _, ⟨_, hst'⟩ | hst'⟩
      · rw [hst']
        exact ⟨rfl, rfl, id⟩
      · rw [hst']
        exact ⟨rfl, rfl, id⟩
  | forward payload st' h =>
      unfold forward at h
      rw [Option.ite_none_right_eq_some, Option.some.injEq] at h
      rw [← h.2]
      exact ⟨rfl, rfl, id⟩
  | write st' h =>
      rcases write_cases st st' h with ⟨frame, rest, _, _, hst'⟩
      rw [hst']
      exact ⟨rfl, rfl, id⟩
  | writeFails => exact ⟨rfl, rfl, fun hlistening => absurd hlistening.2 (by simp [writeFails])⟩
  | eof => exact ⟨rfl, rfl, fun hlistening => absurd hlistening.1 (by simp [eof])⟩

/-- An event sent is one the stream has yet to hear. -/
theorem heard_send (st : Listener) (events : Channel StreamErrorPayload)
    (payload : StreamErrorPayload) (hst : Heard events st) : Heard (events.send payload) st := by
  have hlength : (events.send payload).sent.length = events.sent.length + 1 := by
    simp only [Channel.send, List.length_append, List.length_singleton]
  have hmem : ∀ p, p ∈ events.sent → p ∈ (events.send payload).sent :=
    fun p hp => List.mem_append_left _ hp
  have hbound := hst.bound
  refine ⟨by omega, fun rx hrx => ?_, fun p hp => ?_, fun p hp => ?_, hst.ended⟩
  · have hpolling := hst.polling rx hrx
    omega
  · have hsending := hst.sending p hp
    exact ⟨by omega, hmem p hsending.2⟩
  · have hshown := hst.shown p hp
    exact ⟨by omega, hmem p hshown.2⟩

theorem heard_connect (runtime : RuntimeId) (events : Channel StreamErrorPayload) :
    Heard events (connect runtime events) := by
  refine ⟨le_refl _, fun rx hrx => ?_, fun p hp => absurd hp (by simp [connect]),
    fun p hp => absurd hp (by simp [connect, Shows]), fun _ hend => absurd hend (by simp [connect])⟩
  have hrx' : events.subscribe = rx := EventPc.polling.inj hrx
  rw [← hrx']
  exact ⟨le_refl _, Or.inl rfl⟩

/-! ### What the tasks lead to -/

/-- What the stream's tasks still have to do: skip what was lost, take the event,
    queue it, and write what is queued. -/
def weight (events : Channel StreamErrorPayload) (st : Listener) : Nat :=
  st.queue.length + match st.eventTask with
    | .polling rx => 4 + if events.Lags rx then 1 else 0
    | .sending _ => 2
    | .ended => 0

/-- As long as an event is not delivered, one of the tasks can bring it
    further. -/
theorem heard_progress (events : Channel StreamErrorPayload) (st : Listener)
    (hst : Heard events st) (hlistening : st.Listening) (hsince : st.since < events.sent.length) :
    (∃ payload, .streamError payload ∈ st.delivered) ∨
      ∃ st', (st.write = some st' ∨ st.push = some st' ∨ st.poll events = some st') ∧
        st'.Listening ∧ weight events st' < weight events st := by
  cases hqueue : st.queue with
  | cons frame rest =>
      right
      refine ⟨{ st with queue := rest, delivered := st.delivered ++ [frame] }, Or.inl ?_,
        hlistening, ?_⟩
      · simp only [write, hlistening.2, hqueue]
      · simp only [weight, hqueue, List.length_cons]
        omega
  | nil =>
      cases htask : st.eventTask with
      | ended =>
          rcases hst.ended hlistening htask with ⟨payload, hqueued | hdelivered⟩
          · rw [hqueue] at hqueued
            exact absurd hqueued List.not_mem_nil
          · exact Or.inl ⟨payload, hdelivered⟩
      | sending payload =>
          right
          refine ⟨{ st with eventTask := .ended, queue := st.queue ++ [.streamError payload] },
            Or.inr (Or.inl ?_), hlistening, ?_⟩
          · simp [push, htask, hlistening.2, hqueue, channelCapacity]
          · simp only [weight, htask, hqueue, List.nil_append, List.length_singleton,
              List.length_nil]
            omega
      | polling rx =>
          right
          by_cases hlags : events.Lags rx
          · refine ⟨{ st with eventTask := .polling ⟨events.sent.length - events.capacity⟩ },
              Or.inr (Or.inr ?_), hlistening, ?_⟩
            · simp only [poll, htask, Channel.recv_lagged _ _ rx hlags]
            · simp only [weight, htask, if_pos hlags, if_neg (Channel.not_lags_oldest events)]
              omega
          · -- the task has not read all events, since it has read none
            have hlt : rx.next < events.sent.length := by
              have hpolling := (hst.polling rx htask).2
              omega
            cases hunread : events.unread rx with
            | nil =>
                have hlength := Channel.unread_length events rx
                rw [hunread, List.length_nil] at hlength
                omega
            | cons payload rest =>
                refine ⟨{ st with eventTask := .sending payload }, Or.inr (Or.inr ?_),
                  hlistening, ?_⟩
                · simp only [poll, htask, Channel.recv_value _ _ rx payload rest hlags hunread]
                · simp only [weight, htask]
                  omega

end Listener

namespace Notices

/-- The action is one of the tasks between the event and a stream's client. -/
def OfStream (call : CallId) : NoticeAction → Prop
  | .poll c => c = call
  | .push c => c = call
  | .write c => c = call
  | _ => False

/-- A stream has delivered the eviction's error, or delivers it if from here on
    only its own tasks move. -/
def Hears (s : Notices) (call : CallId) : Prop :=
  ∃ as t st payload, (∀ a ∈ as, OfStream call a) ∧ run step s as = some t ∧
    t.listeners.get? call = some st ∧ .streamError payload ∈ st.delivered ∧
    payload.code = evictedCode

/-- The events are those of memory evictions, and the streams have heard what
    they have heard. -/
structure Sound (s : Notices) : Prop where
  capacity : ∀ runtime, 0 < (s.events runtime).capacity
  codes : ∀ runtime, ∀ payload ∈ (s.events runtime).sent, payload.code = evictedCode
  heard : ∀ call st, s.listeners.get? call = some st → st.Heard (s.events st.runtime)

theorem move_eq_some (s s' : Notices) (call : CallId) (f : Listener → Option Listener)
    (hmove : s.move call f = some s') :
    ∃ st st', s.listeners.get? call = some st ∧ f st = some st' ∧
      s' = { s with listeners := s.listeners.set call st' } := by
  unfold move at hmove
  cases hst : s.listeners.get? call with
  | none => simp only [hst, reduceCtorEq] at hmove
  | some st =>
      simp only [hst, Option.map_eq_some_iff] at hmove
      rcases hmove with ⟨st', hf, heq⟩
      exact ⟨st, st', rfl, hf, heq.symm⟩

/-! ### What a step does -/

/-- What a step does: the daemon moves, the event is sent, a client is answered
    or connects, or a stream moves. -/
inductive Effect (s : Notices) : NoticeAction → Notices → Prop where
  | daemon (a : DaemonAction) (d' : Daemon) (hstep : s.daemon.step a = some d') :
      Effect s (.daemon a) { s with
        daemon := d'
        sent := s.sentAfter a
        holders := s.observe d' a
        watched := s.watch a }
  | announce (sample : MemorySample) (hleaving : leaving s.daemon = some sample) :
      Effect s .announce { s with
        sent := true
        events := Function.update s.events sample.handle.runtime
          ((s.events sample.handle.runtime).send (evictionNotice sample s.daemon.settings))
        holders := s.holders.mapValues Holder.announce }
  | answer (call : CallId) (leaseId : String) (runtime : RuntimeId)
      (hfree : s.holders.get? call = none) :
      Effect s (.answer call)
        { s with holders := s.holders.set call ⟨leaseId, runtime, .held, none⟩ }
  | connect (call : CallId) (runtime : RuntimeId) (hfree : s.listeners.get? call = none) :
      Effect s (.connect call)
        { s with listeners := s.listeners.set call (.connect runtime (s.events runtime)) }
  | moved (a : NoticeAction) (call : CallId) (st st' : Listener)
      (ha : a = .poll call ∨ a = .push call ∨ (∃ payload, a = .forward call payload) ∨
        a = .write call ∨ a = .writeFails call ∨ a = .eof call)
      (hst : s.listeners.get? call = some st)
      (hmoved : Listener.Moved (s.events st.runtime) st st') :
      Effect s a { s with listeners := s.listeners.set call st' }

theorem step_effect (s s' : Notices) (a : NoticeAction) (hstep : s.step a = some s') :
    Effect s a s' := by
  cases a with
  | daemon a =>
      simp only [step, Option.ite_none_right_eq_some, Option.map_eq_some_iff] at hstep
      rcases hstep with ⟨_, d', hd, heq⟩
      rw [← heq]
      exact .daemon a d' hd
  | announce =>
      simp only [step] at hstep
      split at hstep
      · rename_i sample hleaving hsent
        rw [← Option.some.inj hstep]
        exact .announce sample hleaving
      · exact absurd hstep (by simp)
  | answer call =>
      simp only [step] at hstep
      split at hstep
      · rename_i lease handle hcall hfree
        rw [← Option.some.inj hstep]
        exact .answer call lease.id handle.runtime hfree
      · exact absurd hstep (by simp)
  | connect call =>
      simp only [step] at hstep
      split at hstep
      · rename_i lease handle hcall hfree
        rw [← Option.some.inj hstep]
        exact .connect call handle.runtime hfree
      · exact absurd hstep (by simp)
  | poll call =>
      rcases move_eq_some s s' call _ hstep with ⟨st, st', hst, hf, heq⟩
      rw [heq]
      exact .moved _ call st st' (by simp) hst (.poll st' hf)
  | push call =>
      rcases move_eq_some s s' call _ hstep with ⟨st, st', hst, hf, heq⟩
      rw [heq]
      exact .moved _ call st st' (by simp) hst (.push st' hf)
  | forward call payload =>
      rcases move_eq_some s s' call _ hstep with ⟨st, st', hst, hf, heq⟩
      rw [heq]
      exact .moved _ call st st' (by simp) hst (.forward payload st' hf)
  | write call =>
      rcases move_eq_some s s' call _ hstep with ⟨st, st', hst, hf, heq⟩
      rw [heq]
      exact .moved _ call st st' (by simp) hst (.write st' hf)
  | writeFails call =>
      rcases move_eq_some s s' call _ hstep with ⟨st, st', hst, hf, heq⟩
      rw [heq, ← Option.some.inj hf]
      exact .moved _ call st _ (by simp) hst .writeFails
  | eof call =>
      rcases move_eq_some s s' call _ hstep with ⟨st, st', hst, hf, heq⟩
      rw [heq, ← Option.some.inj hf]
      exact .moved _ call st _ (by simp) hst .eof

theorem sound_init (idleTtl : Duration) (settings : MemoryBudgetSettings)
    (daemonIdleTtl : Option Duration) : Sound (init idleTtl settings daemonIdleTtl) where
  capacity := fun runtime => by simp [init, eventCapacity]
  codes := fun runtime payload hp => absurd hp (by simp [init])
  heard := fun call st hst => absurd hst (by simp [init])

theorem sound_step (s s' : Notices) (a : NoticeAction) (h : s.Sound)
    (hstep : s.step a = some s') : s'.Sound := by
  cases step_effect s s' a hstep with
  | daemon a d' hd => exact ⟨h.capacity, h.codes, h.heard⟩
  | answer call leaseId runtime hfree => exact ⟨h.capacity, h.codes, h.heard⟩
  | announce sample hleaving =>
      refine ⟨fun runtime => ?_, fun runtime payload hp => ?_, fun call st hst => ?_⟩
      · by_cases hr : runtime = sample.handle.runtime
        · simp only [hr, Function.update_self]
          exact h.capacity _
        · simp only [Function.update_of_ne hr]
          exact h.capacity runtime
      · by_cases hr : runtime = sample.handle.runtime
        · simp only [hr, Function.update_self] at hp
          rcases List.mem_append.mp hp with hp | hp
          · exact h.codes _ payload hp
          · rw [List.mem_singleton.mp hp]
            rfl
        · simp only [Function.update_of_ne hr] at hp
          exact h.codes runtime payload hp
      · -- A receiver on another session hears nothing of it.
        have hheard := h.heard call st hst
        by_cases hr : st.runtime = sample.handle.runtime
        · rw [hr] at hheard
          simp only [hr, Function.update_self]
          exact Listener.heard_send st _ _ hheard
        · simp only [Function.update_of_ne hr]
          exact hheard
  | connect call runtime hfree =>
      refine ⟨h.capacity, h.codes, fun c st hst => ?_⟩
      rcases (Table.get?_set_eq_some _ _ _ _ _).mp hst with ⟨_, hst⟩ | ⟨_, hst⟩
      · rw [← hst]
        exact Listener.heard_connect runtime (s.events runtime)
      · exact h.heard c st hst
  | moved _ call st st' ha hst hmoved =>
      refine ⟨h.capacity, h.codes, fun c u hu => ?_⟩
      rcases (Table.get?_set_eq_some _ _ _ _ _).mp hu with ⟨_, hu⟩ | ⟨_, hu⟩
      · rw [← hu, (Listener.moved_same st st' _ hmoved).1]
        exact Listener.heard_moved st st' _ (h.capacity _) (h.heard call st hst) hmoved
      · exact h.heard c u hu

/-! ### What a stream delivers -/

/-- A step of a stream's own tasks moves that stream. -/
theorem ofStream_step (s s' : Notices) (call : CallId) (a : NoticeAction) (ha : OfStream call a)
    (hstep : s.step a = some s') :
    s'.events = s.events ∧ ∃ st st', s.listeners.get? call = some st ∧
      s'.listeners.get? call = some st' ∧ Listener.Moved (s.events st.runtime) st st' := by
  cases step_effect s s' a hstep with
  | daemon | announce | answer | connect => exact absurd ha (by simp [OfStream])
  | moved _ c st st' hac hst hmoved =>
      have hc : c = call := by
        rcases hac with hac | hac | ⟨payload, hac⟩ | hac | hac | hac <;> rw [hac] at ha <;>
          first
          | exact ha
          | exact absurd ha (by simp [OfStream])
      rw [hc] at hst ⊢
      exact ⟨rfl, st, st', hst, Table.get?_set_self _ _ _, hmoved⟩

/-- What the stream's tasks still have to do. -/
def taskWeight (call : CallId) (s : Notices) : Nat :=
  match s.listeners.get? call with
  | none => 0
  | some st => st.weight (s.events st.runtime)

/-- A stream that delivers, and whose session has sent an event since its client
    connected. -/
def Due (call : CallId) (s : Notices) : Prop :=
  s.Sound ∧ ∃ st, s.listeners.get? call = some st ∧ st.Listening ∧
    st.since < (s.events st.runtime).sent.length

theorem due_progress (call : CallId) (s : Notices) (h : s.Due call) :
    (∃ st payload, s.listeners.get? call = some st ∧ .streamError payload ∈ st.delivered ∧
        payload.code = evictedCode) ∨
      ∃ a s', OfStream call a ∧ s.step a = some s' ∧ s'.Due call ∧
        taskWeight call s' < taskWeight call s := by
  rcases h with ⟨hsound, st, hst, hlistening, hsince⟩
  have hheard := hsound.heard call st hst
  rcases Listener.heard_progress (s.events st.runtime) st hheard hlistening hsince with
    ⟨payload, hmem⟩ | ⟨st', hmove, hlistening', hless⟩
  · exact Or.inl ⟨st, payload, hst, hmem,
      hsound.codes _ payload (hheard.shown payload (Or.inr hmem)).2⟩
  right
  have hnext : ∃ a, OfStream call a ∧
      s.step a = some { s with listeners := s.listeners.set call st' } ∧
      Listener.Moved (s.events st.runtime) st st' := by
    rcases hmove with hmove | hmove | hmove
    · exact ⟨.write call, rfl, by simp only [step, move, hst, hmove, Option.map_some],
        .write st' hmove⟩
    · exact ⟨.push call, rfl, by simp only [step, move, hst, hmove, Option.map_some],
        .push st' hmove⟩
    · exact ⟨.poll call, rfl, by simp only [step, move, hst, hmove, Option.map_some],
        .poll st' hmove⟩
  rcases hnext with ⟨a, ha, hstep, hmoved⟩
  have hsame := Listener.moved_same st st' _ hmoved
  refine ⟨a, _, ha, hstep, ⟨sound_step s _ a hsound hstep, st', Table.get?_set_self _ _ _,
    hlistening', ?_⟩, ?_⟩
  · rw [hsame.1, hsame.2.1]
    exact hsince
  · simp only [taskWeight, hst, Table.get?_set_self, hsame.1]
    exact hless

/-- A stream that delivers, delivers the error if and only if its session has
    sent an event since its client connected. -/
theorem hears_iff (s : Notices) (call : CallId) (st : Listener) (hsound : s.Sound)
    (hst : s.listeners.get? call = some st) (hlistening : st.Listening) :
    s.Hears call ↔ st.since < (s.events st.runtime).sent.length := by
  constructor
  · rintro ⟨as, t, u, payload, htasks, hrun, hu, hmem, _⟩
    -- The stream's own tasks send no event.
    have hinv := run_invariant (C := fun _ a => OfStream call a)
      (I := fun v : Notices => v.Sound ∧ v.events = s.events ∧
        ∃ u, v.listeners.get? call = some u ∧ u.runtime = st.runtime ∧ u.since = st.since)
      ?_ as s t hrun ⟨hsound, rfl, st, hst, rfl, rfl⟩ (along_of_forall as s htasks)
    · rcases hinv with ⟨hsound', hevents, u', hu', hruntime, hsince⟩
      rw [hu, Option.some.injEq] at hu'
      have hshown := ((hsound'.heard call u hu).shown payload (Or.inr hmem)).1
      rw [hevents, hu', hruntime, hsince] at hshown
      exact hshown
    · rintro v a v' ⟨hv, hevents, u, hu, hruntime, hsince⟩ hstep ha
      rcases ofStream_step v v' call a ha hstep with ⟨hevents', u₀, u', hu₀, hu', hmoved⟩
      have hsame := Listener.moved_same u₀ u' _ hmoved
      rw [hu, Option.some.injEq] at hu₀
      refine ⟨sound_step v v' a hv hstep, hevents'.trans hevents, u', hu', ?_, ?_⟩
      · rw [hsame.1, ← hu₀, hruntime]
      · rw [hsame.2.1, ← hu₀, hsince]
  · intro hsince
    rcases exists_run_of_progress (taskWeight call) (due_progress call) s
      ⟨hsound, st, hst, hlistening, hsince⟩ with
      ⟨as, t, htasks, hrun, u, payload, hu, hmem, hcode⟩
    exact ⟨as, t, u, payload, htasks, hrun, hu, hmem, hcode⟩

/-! ### How a request fails -/

/-- The lookup that a request makes next finds what it looks for, and a session
    that is being terminated has a notice with the code. The runtime does not
    fail a request it was handed. -/
def Finds (r : SessionRegistry) (id : String) (a : Action) : ForwardPc → Prop
  | .lease => r.leaseKey id ≠ none
  | .session key => ∃ record, r.sessions.get? key = some record ∧
      (record.terminating = true → ∃ notice, record.terminationNotice = some notice ∧
        containsText (notice.code ++ ": " ++ notice.message) evictedCode = true)
  | .awaiting _ _ => ∀ call error, a = .runtimeReturns call (.error error) →
      containsText error evictedCode = true
  | _ => True

/-- A request has failed, and its answer does not have the code. -/
def FailsSilently (w : World) (c : CallId) (kind : ForwardKind) (id : String) (m : Json) : Prop :=
  ∃ result, w.calls.get? c = some (.forward kind id m (.returned result)) ∧
    (forwardAnswer kind none result).isSome = true ∧ ¬Announces kind result

theorem not_announces_ok (kind : ForwardKind) (response : Option Json) :
    ¬Announces kind (.ok response) := by
  rw [announces_iff]
  rintro ⟨message, hmessage, _⟩
  exact absurd hmessage (by simp)

theorem announces_error (kind : ForwardKind) (message : String) :
    Announces kind (.error message) ↔ containsText message evictedCode = true := by
  rw [announces_iff]
  constructor
  · rintro ⟨text, htext, hcode⟩
    rw [Except.error.inj htext]
    exact hcode
  · intro hcode
    exact ⟨message, rfl, hcode⟩

/-- Where a request ends with a result, it fails silently or not as the result
    says. -/
theorem failsSilently_returned (w : World) (c : CallId) (kind : ForwardKind) (id : String)
    (m : Json) (result : Except String (Option Json))
    (hget : w.calls.get? c = some (.forward kind id m (.returned result))) :
    FailsSilently w c kind id m ↔
      (forwardAnswer kind none result).isSome = true ∧ ¬Announces kind result := by
  constructor
  · rintro ⟨result', hget', hfails⟩
    rw [hget, Option.some.injEq, Frame.forward.injEq, ForwardPc.returned.injEq] at hget'
    rw [hget'.2.2.2]
    exact hfails
  · intro hfails
    exact ⟨result, hget, hfails⟩

theorem not_failsSilently (w : World) (c : CallId) (kind : ForwardKind) (id : String)
    (m : Json) (pc : ForwardPc) (hget : w.calls.get? c = some (.forward kind id m pc))
    (hpc : ∀ result, pc ≠ .returned result) : ¬FailsSilently w c kind id m := by
  rintro ⟨result, hget', _⟩
  rw [hget, Option.some.injEq, Frame.forward.injEq] at hget'
  exact hpc result hget'.2.2.2

/-- A lookup of the lease. -/
theorem fails_lease (w : World) (c : CallId) (kind : ForwardKind) (id : String) (m : Json)
    (w' : World) (hcall : w.calls.get? c = some (.forward kind id m .lease))
    (hstep : w.step (.sect c) = some w') :
    FailsSilently w' c kind id m ↔ w.reg.leaseKey id = none := by
  simp only [World.step, hcall, Frame.section, ForwardPc.section] at hstep
  cases hkey : w.reg.leaseKey id with
  | none =>
      simp only [hkey, Option.map_some, Option.some.injEq] at hstep
      rw [← hstep, failsSilently_returned _ c kind id m (.ok none) (Table.get?_set_self _ _ _)]
      exact ⟨fun _ => rfl, fun _ => ⟨rfl, not_announces_ok kind none⟩⟩
  | some key =>
      simp only [hkey, Option.map_some, Option.some.injEq] at hstep
      have hno := not_failsSilently w' c kind id m (.session key)
        (by rw [← hstep]; exact Table.get?_set_self _ _ _) (by simp)
      exact ⟨fun hfails => absurd hfails hno, fun hnone => absurd hnone (by simp)⟩

theorem finds_session (r : SessionRegistry) (id : String) (a : Action) (key : SessionKey)
    (record : SessionRecord) (hrecord : r.sessions.get? key = some record) :
    Finds r id a (.session key) ↔
      (record.terminating = true → ∃ notice, record.terminationNotice = some notice ∧
        containsText (notice.code ++ ": " ++ notice.message) evictedCode = true) := by
  constructor
  · rintro ⟨record', hrecord', hfinds⟩
    rw [hrecord, Option.some.injEq] at hrecord'
    rw [hrecord']
    exact hfinds
  · intro hfinds
    exact ⟨record, hrecord, hfinds⟩

/-- A lookup of the session. -/
theorem fails_session (w : World) (c : CallId) (kind : ForwardKind) (id : String) (m : Json)
    (key : SessionKey) (w' : World)
    (hcall : w.calls.get? c = some (.forward kind id m (.session key)))
    (hstep : w.step (.sect c) = some w') (a : Action) :
    FailsSilently w' c kind id m ↔ ¬Finds w.reg id a (.session key) := by
  simp only [World.step, hcall, Frame.section, ForwardPc.section,
    SessionRegistry.lookupRuntime] at hstep
  cases hrecord : w.reg.sessions.get? key with
  | none =>
      simp only [hrecord, Option.map_some, Option.some.injEq] at hstep
      rw [← hstep, failsSilently_returned _ c kind id m (.ok none) (Table.get?_set_self _ _ _)]
      refine ⟨fun _ => ?_, fun _ => ⟨rfl, not_announces_ok kind none⟩⟩
      rintro ⟨record, hrecord', _⟩
      rw [hrecord] at hrecord'
      exact absurd hrecord' (by simp)
  | some record =>
      rw [finds_session w.reg id a key record hrecord]
      cases hterminating : record.terminating with
      | false =>
          simp only [hrecord, hterminating, Bool.false_eq_true, if_false, Option.map_some,
            Option.some.injEq] at hstep
          have hno := not_failsSilently w' c kind id m (.awaiting key record.handle.runtime)
            (by rw [← hstep]; exact Table.get?_set_self _ _ _) (by simp)
          exact ⟨fun hfails => absurd hfails hno, fun hfinds => absurd (by simp) hfinds⟩
      | true =>
          cases hnotice : record.terminationNotice with
          | none =>
              simp only [hrecord, hterminating, hnotice, if_true, Option.map_some,
                Option.some.injEq] at hstep
              rw [← hstep, failsSilently_returned _ c kind id m _ (Table.get?_set_self _ _ _),
                announces_error]
              -- The text of a refusal without a notice does not contain the code.
              have hcode : ¬containsText "session is terminating" evictedCode = true := by decide
              exact ⟨fun _ => by simp, fun _ => ⟨rfl, hcode⟩⟩
          | some notice =>
              simp only [hrecord, hterminating, hnotice, if_true, Option.map_some,
                Option.some.injEq] at hstep
              rw [← hstep, failsSilently_returned _ c kind id m _ (Table.get?_set_self _ _ _),
                announces_error]
              simp [forwardAnswer]

/-- A request that is moved fails without the code exactly when it does not find
    what it needs. -/
theorem fails_iff (w w' : World) (a : Action) (c : CallId) (kind : ForwardKind) (id : String)
    (m : Json) (pc : ForwardPc) (hmover : a.mover = some c)
    (hcall : w.calls.get? c = some (.forward kind id m pc)) (hstep : w.step a = some w') :
    FailsSilently w' c kind id m ↔ ¬Finds w.reg id a pc := by
  cases a with
  | tick | start => exact absurd hmover (by simp [Action.mover])
  | sect call =>
      rw [Action.mover, Option.some.injEq] at hmover
      rw [hmover] at hstep
      -- Two sections look something up: the lease, then the session under its key.
      cases pc with
      | lease =>
          rw [fails_lease w c kind id m w' hcall hstep]
          simp only [Finds, ne_eq, not_not]
      | session key => exact fails_session w c kind id m key w' hcall hstep _
      | awaiting key runtime =>
          simp only [World.step, hcall, Frame.section, ForwardPc.section, Option.map_none,
            reduceCtorEq] at hstep
      | touch key response =>
          simp only [World.step, hcall, Frame.section, ForwardPc.section, Option.map_some,
            Option.some.injEq] at hstep
          rw [← hstep, failsSilently_returned _ c kind id m _ (Table.get?_set_self _ _ _)]
          simp [forwardAnswer, Finds]
      | returned result =>
          simp only [World.step, hcall, Frame.section, ForwardPc.section, Option.map_none,
            reduceCtorEq] at hstep
  | spawnReturns call result =>
      rw [Action.mover, Option.some.injEq] at hmover
      simp only [World.step, hmover, hcall, reduceCtorEq] at hstep
  | runtimeReturns call result =>
      rw [Action.mover, Option.some.injEq] at hmover
      rw [hmover] at hstep ⊢
      simp only [World.step, hcall] at hstep
      cases pc with
      | awaiting key runtime =>
          simp only [Option.some.injEq] at hstep
          cases result with
          | ok response =>
              have hno := not_failsSilently w' c kind id m (.touch key response)
                (by rw [← hstep]; exact Table.get?_set_self _ _ _) (by simp)
              exact ⟨fun hfails => absurd hfails hno, fun hfinds => absurd (by simp [Finds]) hfinds⟩
          | error error =>
              rw [← hstep, World.runtimeReturn,
                failsSilently_returned _ c kind id m _ (Table.get?_set_self _ _ _),
                announces_error]
              simp [forwardAnswer, Finds]
      | lease | session | touch | returned => exact absurd hstep (by simp)

/-- Only a section of a request makes a frame of one. -/
theorem forward_of_section (call : CallId) (now : Instant) (r r' : SessionRegistry)
    (frame : Frame) (kind : ForwardKind) (id : String) (m : Json) (pc' : ForwardPc)
    (events : List Event)
    (h : frame.section call now r = some (r', .forward kind id m pc', events)) :
    ∃ pc, frame = .forward kind id m pc := by
  cases frame with
  | forward kind₀ id₀ m₀ pc =>
      simp only [Frame.section, Option.map_eq_some_iff, Prod.mk.injEq, Frame.forward.injEq,
        Prod.exists] at h
      rcases h with ⟨_, _, _, _, _, ⟨rfl, rfl, rfl, _⟩, _⟩
      exact ⟨pc, rfl⟩
  | acquire key clientKind pc =>
      cases pc with
      | returned result => cases result <;> simp [Frame.section, AcquirePc.section] at h
      | _ => simp [Frame.section, Option.map_eq_some_iff] at h
  | idle start result => cases result <;> simp [Frame.section] at h
  | _ => simp [Frame.section] at h

/-- A request that an action has moved was a request before. -/
theorem forward_of_moved (w w' : World) (a : Action) (c : CallId) (kind : ForwardKind)
    (id : String) (m : Json) (pc' : ForwardPc) (hmover : a.mover = some c)
    (hstep : w.step a = some w') (hget : w'.calls.get? c = some (.forward kind id m pc')) :
    ∃ pc, w.calls.get? c = some (.forward kind id m pc) := by
  cases a with
  | tick | start => exact absurd hmover (by simp [Action.mover])
  | sect call =>
      rw [Action.mover, Option.some.injEq] at hmover
      simp only [World.step, hmover] at hstep
      cases hcall : w.calls.get? c with
      | none => simp only [hcall, reduceCtorEq] at hstep
      | some frame =>
          simp only [hcall, Option.map_eq_some_iff, Prod.exists] at hstep
          rcases hstep with ⟨r', frame', events, hsec, rfl⟩
          -- What the section leaves in the table is the frame of the request.
          have hframe : some frame' = some (.forward kind id m pc') := by
            rw [← hget]
            exact (Table.get?_set_self _ _ _).symm
          rw [Option.some.inj hframe] at hsec
          rcases forward_of_section c w.now w.reg r' frame kind id m pc' events hsec with ⟨pc, hpc⟩
          exact ⟨pc, by rw [hpc]⟩
  | spawnReturns call result =>
      rw [Action.mover, Option.some.injEq] at hmover
      rw [hmover] at hstep
      simp only [World.step] at hstep
      split at hstep
      · rw [← Option.some.inj hstep] at hget
        cases result with
        | ok initializeResult =>
            simp only [World.spawnReturn, World.moved, Table.get?_set_self] at hget
            exact absurd hget (by simp)
        | error error =>
            simp only [World.spawnReturn, World.moved, Table.get?_set_self] at hget
            exact absurd hget (by simp)
      · exact absurd hstep (by simp)
  | runtimeReturns call result =>
      rw [Action.mover, Option.some.injEq] at hmover
      rw [hmover] at hstep
      simp only [World.step] at hstep
      split at hstep
      · rename_i kind₀ id₀ m₀ key runtime hcall
        rw [← Option.some.inj hstep] at hget
        cases result with
        | ok response =>
            simp only [World.runtimeReturn, World.moved, Table.get?_set_self, Option.some.injEq,
              Frame.forward.injEq] at hget
            rcases hget with ⟨rfl, rfl, rfl, _⟩
            exact ⟨_, hcall⟩
        | error error =>
            simp only [World.runtimeReturn, World.moved, Table.get?_set_self, Option.some.injEq,
              Frame.forward.injEq] at hget
            rcases hget with ⟨rfl, rfl, rfl, _⟩
            exact ⟨_, hcall⟩
      · exact absurd hstep (by simp)

/-! ### Those that hold a lease -/

/-- Those that hold a lease on a session learn of its eviction: the first request
    on the lease that fails after the mark is answered with the code, and a
    stream that delivers, delivers the error once it was sent. -/
structure Noticed (s : Notices) : Prop where
  told : ∀ call holder kind result, s.holders.get? call = some holder →
    holder.told = some (kind, result) → Announces kind result
  shown : ∀ call holder st, s.holders.get? call = some holder → holder.status = .announced →
    s.listeners.get? call = some st → st.Listening → s.Hears call

/-- A request on the lease of an evicted session, from which its holder will
    learn, finds what it looks for. -/
def TellCond (s : Notices) (a : Action) : Prop :=
  ∀ c kind id m pc, a.mover = some c → c ∈ s.watched →
    s.daemon.world.calls.get? c = some (.forward kind id m pc) →
    (∃ call holder, s.holders.get? call = some holder ∧ holder.waits id = true) →
    Finds s.daemon.world.reg id a pc

/-- Requests on the lease of an evicted session find the lease, and the session
    marked. The victim's event is sent on the channel that the streams on the
    evicted session have subscribed to, and no stream on it connects later. -/
def NoticeCond (s : Notices) : NoticeAction → Prop
  | .daemon (.client a) => s.TellCond a
  | .announce => ∀ sample, leaving s.daemon = some sample → ∀ call holder st,
      s.holders.get? call = some holder → holder.status = .evicted →
      s.listeners.get? call = some st → st.Listening →
      st.runtime = sample.handle.runtime ∨ st.since < (s.events st.runtime).sent.length
  | .connect call => ∀ holder, s.holders.get? call = some holder → holder.status ≠ .announced
  | _ => True

theorem ending_eq_some (watched : List CallId) (d' : Daemon) (a : Action) (kind : ForwardKind)
    (id : String) (result : Except String (Option Json)) :
    ending watched d' a = some (kind, id, result) ↔ ∃ c m, a.mover = some c ∧ c ∈ watched ∧
      d'.world.calls.get? c = some (.forward kind id m (.returned result)) := by
  unfold ending
  constructor
  · intro h
    split at h
    · exact absurd h (by simp)
    · rename_i c hmover
      split at h
      · rename_i hwatched
        split at h
        · rename_i kind₀ id₀ m result₀ hget
          simp only [Option.some.injEq, Prod.mk.injEq] at h
          rcases h with ⟨rfl, rfl, rfl⟩
          exact ⟨c, m, hmover, hwatched, hget⟩
        · exact absurd h (by simp)
      · exact absurd h (by simp)
  · rintro ⟨c, m, hmover, hwatched, hget⟩
    simp only [hmover, if_pos hwatched, hget]

theorem waits_of_tell (holder holder' : Holder) (kind : ForwardKind) (id : String)
    (result : Except String (Option Json)) (h : holder.tell kind id result = holder') :
    (holder'.told = holder.told ∨ holder.waits id = true ∧
      (forwardAnswer kind none result).isSome = true ∧ holder'.told = some (kind, result)) ∧
    holder'.status = holder.status := by
  unfold Holder.tell at h
  by_cases hwaits : holder.waits id ∧ (forwardAnswer kind none result).isSome
  · rw [if_pos hwaits] at h
    rw [← h]
    exact ⟨Or.inr ⟨hwaits.1, hwaits.2, rfl⟩, rfl⟩
  · rw [if_neg hwaits] at h
    rw [← h]
    exact ⟨Or.inl rfl, rfl⟩

/-- What an action of the daemon means for one holder: it learns of a failure on
    its lease, or what it knows stays; and no action of the daemon sends the
    event. -/
theorem observe_cases (s : Notices) (d' : Daemon) (a : DaemonAction) (call : CallId)
    (holder' : Holder) (h : (s.observe d' a).get? call = some holder') :
    ∃ holder, s.holders.get? call = some holder ∧
      (holder'.told = holder.told ∨ ∃ b kind id result, a = .client b ∧
        ending s.watched d' b = some (kind, id, result) ∧ holder.waits id = true ∧
        (forwardAnswer kind none result).isSome = true ∧ holder'.told = some (kind, result)) ∧
      (holder'.status = .announced → holder.status = .announced) := by
  unfold observe at h
  split at h
  · -- A release takes the lease from the holders, and tells them nothing.
    rename_i c id
    rcases (Table.get?_mapValues_eq_some _ _ _ _).mp h with ⟨holder, hget, hholder⟩
    refine ⟨holder, hget, ?_⟩
    unfold Holder.release at hholder
    by_cases hid : holder.leaseId = id
    · rw [if_pos hid] at hholder
      rw [← hholder]
      exact ⟨Or.inl rfl, fun hstatus => absurd hstatus (by simp)⟩
    · rw [if_neg hid] at hholder
      rw [← hholder]
      exact ⟨Or.inl rfl, fun hstatus => hstatus⟩
  · rename_i b _
    split at h
    · rename_i kind id result hending
      rcases (Table.get?_mapValues_eq_some _ _ _ _).mp h with ⟨holder, hget, hholder⟩
      rcases waits_of_tell holder holder' kind id result hholder with ⟨htold, hstatus⟩
      refine ⟨holder, hget, ?_, fun hannounced => by rw [← hstatus]; exact hannounced⟩
      rcases htold with hsame | ⟨hwaits, hfails, htold⟩
      · exact Or.inl hsame
      · exact Or.inr ⟨b, kind, id, result, rfl, hending, hwaits, hfails, htold⟩
    · exact ⟨holder', h, Or.inl rfl, id⟩
  · -- The monitor marks before it announces: a holder marked now has not been told.
    split at h
    · rename_i sample _
      rcases (Table.get?_mapValues_eq_some _ _ _ _).mp h with ⟨holder, hget, hholder⟩
      refine ⟨holder, hget, ?_⟩
      unfold Holder.mark at hholder
      split at hholder
      · rw [← hholder]
        exact ⟨Or.inl rfl, fun hstatus => absurd hstatus (by simp)⟩
      · rw [← hholder]
        exact ⟨Or.inl rfl, id⟩
    · exact ⟨holder', h, Or.inl rfl, id⟩
  · exact ⟨holder', h, Or.inl rfl, id⟩

/-- A holder that waits learns of the failure. -/
theorem observe_ending (s : Notices) (d' : Daemon) (a : Action) (call : CallId) (holder : Holder)
    (kind : ForwardKind) (id : String) (result : Except String (Option Json))
    (hending : ending s.watched d' a = some (kind, id, result))
    (hget : s.holders.get? call = some holder) (hwaits : holder.waits id = true)
    (hfails : (forwardAnswer kind none result).isSome = true) :
    (s.observe d' (.client a)).get? call = some { holder with told := some (kind, result) } := by
  have hobserve : s.observe d' (.client a) = s.holders.mapValues (Holder.tell kind id result) := by
    cases a with
    | start c method =>
        rcases (ending_eq_some _ _ _ _ _ _).mp hending with ⟨c', m, hmover, _⟩
        exact absurd hmover (by simp [Action.mover])
    | _ => simp only [observe, hending]
  rw [hobserve, Table.get?_mapValues, hget, Option.map_some, Holder.tell,
    if_pos ⟨hwaits, hfails⟩]

/-! ### What the condition does -/

theorem client_step (d d' : Daemon) (a : Action) (h : d.step (.client a) = some d') :
    d.world.step a = some d'.world := by
  simp only [Daemon.step, Option.ite_none_right_eq_some, Option.map_eq_some_iff] at h
  rcases h with ⟨_, w', hstep, rfl⟩
  exact hstep

/-- A step that meets the condition tells no holder anything else. -/
theorem told_keep (s s' : Notices) (a : NoticeAction) (h : s.Noticed)
    (hstep : s.step a = some s') (hcond : s.NoticeCond a) (call : CallId) (holder : Holder)
    (kind : ForwardKind) (result : Except String (Option Json))
    (hget : s'.holders.get? call = some holder) (htold : holder.told = some (kind, result)) :
    Announces kind result := by
  cases step_effect s s' a hstep with
  | connect | moved => exact h.told call holder kind result hget htold
  | answer c leaseId runtime hfree =>
      rcases (Table.get?_set_eq_some _ _ _ _ _).mp hget with ⟨_, hnew⟩ | ⟨_, hold⟩
      · rw [← hnew] at htold
        exact absurd htold (by simp)
      · exact h.told call holder kind result hold htold
  | announce sample hleaving =>
      rcases (Table.get?_mapValues_eq_some _ _ _ _).mp hget with ⟨holder₀, hget₀, hholder⟩
      refine h.told call holder₀ kind result hget₀ ?_
      rw [← htold, ← hholder, Holder.announce]
      split <;> rfl
  | daemon b d' hd =>
      rcases observe_cases s d' b call holder hget with ⟨holder₀, hget₀, hcases, _⟩
      rcases hcases with hsame | ⟨act, kind', id, result', hb, hending, hwaits, hfails, hnew⟩
      · exact h.told call holder₀ kind result hget₀ (by rw [← hsame, htold])
      · rw [htold, Option.some.injEq, Prod.mk.injEq] at hnew
        rw [hnew.1, hnew.2]
        rw [hb] at hd hcond
        rcases (ending_eq_some _ _ _ _ _ _).mp hending with ⟨c, m, hmover, hwatched, hreturned⟩
        have hworld := client_step s.daemon d' act hd
        rcases forward_of_moved _ _ act c kind' id m _ hmover hworld hreturned with ⟨pc, hcall⟩
        by_contra hannounces
        have hsilent : FailsSilently d'.world c kind' id m :=
          ⟨result', hreturned, hfails, hannounces⟩
        exact (fails_iff _ _ act c kind' id m pc hmover hcall hworld).mp hsilent
          (hcond c kind' id m pc hmover hwatched hcall ⟨call, holder₀, hget₀, hwaits⟩)

/-- A stream on an evicted session that delivers has been sent the event since
    its client connected. -/
def Reached (s : Notices) : Prop :=
  ∀ call holder st, s.holders.get? call = some holder → holder.status = .announced →
    s.listeners.get? call = some st → st.Listening →
    st.since < (s.events st.runtime).sent.length

theorem reached_keep (s s' : Notices) (a : NoticeAction) (hsound : s.Sound) (h : s.Reached)
    (hstep : s.step a = some s') (hcond : s.NoticeCond a) : s'.Reached := by
  intro call holder st hget hstatus hst hlistening
  cases step_effect s s' a hstep with
  | daemon b d' hd =>
      rcases observe_cases s d' b call holder hget with ⟨holder₀, hget₀, _, hannounced⟩
      exact h call holder₀ st hget₀ (hannounced hstatus) hst hlistening
  | answer c leaseId runtime hfree =>
      rcases (Table.get?_set_eq_some _ _ _ _ _).mp hget with ⟨_, hnew⟩ | ⟨_, hold⟩
      · rw [← hnew] at hstatus
        exact absurd hstatus (by simp)
      · exact h call holder st hold hstatus hst hlistening
  | announce sample hleaving =>
      rcases (Table.get?_mapValues_eq_some _ _ _ _).mp hget with ⟨holder₀, hget₀, hholder⟩
      by_cases hr : st.runtime = sample.handle.runtime
      · -- The stream subscribed before this event was sent.
        have hbound := (hsound.heard call st hst).bound
        rw [hr] at hbound
        simp only [hr, Function.update_self, Channel.send, List.length_append,
          List.length_singleton]
        omega
      · simp only [Function.update_of_ne hr]
        by_cases hevicted : holder₀.status = .evicted
        · exact (hcond sample hleaving call holder₀ st hget₀ hevicted hst
            hlistening).resolve_left hr
        · rw [Holder.announce, if_neg hevicted] at hholder
          rw [← hholder] at hstatus
          exact h call holder₀ st hget₀ hstatus hst hlistening
  | connect c runtime hfree =>
      rcases (Table.get?_set_eq_some _ _ _ _ _).mp hst with ⟨hc, hnew⟩ | ⟨_, hold⟩
      · rw [hc] at hget
        exact absurd hstatus (hcond holder hget)
      · exact h call holder st hget hstatus hold hlistening
  | moved _ c st₀ st' ha hst₀ hmoved =>
      rcases (Table.get?_set_eq_some _ _ _ _ _).mp hst with ⟨hc, hnew⟩ | ⟨_, hold⟩
      · have hsame := Listener.moved_same st₀ st' _ hmoved
        rw [← hnew] at hlistening ⊢
        rw [hsame.1, hsame.2.1]
        rw [hc] at hget
        exact h c holder st₀ hget hstatus hst₀ (hsame.2.2 hlistening)
      · exact h call holder st hget hstatus hold hlistening

theorem noticed_keep (s s' : Notices) (a : NoticeAction) (hsound : s.Sound) (h : s.Noticed)
    (hstep : s.step a = some s') (hcond : s.NoticeCond a) : s'.Noticed := by
  have hsound' := sound_step s s' a hsound hstep
  have hreached : s.Reached := fun call holder st hget hstatus hst hlistening =>
    (hears_iff s call st hsound hst hlistening).mp
      (h.shown call holder st hget hstatus hst hlistening)
  have hreached' := reached_keep s s' a hsound hreached hstep hcond
  exact ⟨told_keep s s' a h hstep hcond, fun call holder st hget hstatus hst hlistening =>
    (hears_iff s' call st hsound' hst hlistening).mpr
      (hreached' call holder st hget hstatus hst hlistening)⟩

/-- A request that does not find what it looks for leaves a holder with another
    answer. -/
theorem tell_need (s : Notices) (d' : Daemon) (a : Action)
    (hworld : s.daemon.world.step a = some d'.world)
    (htold : ∀ call holder kind result, (s.observe d' (.client a)).get? call = some holder →
      holder.told = some (kind, result) → Announces kind result) : s.TellCond a := by
  rintro c kind id m pc hmover hwatched hcall ⟨call, holder, hget, hwaits⟩
  by_contra hfinds
  rcases (fails_iff _ _ a c kind id m pc hmover hcall hworld).mpr hfinds with
    ⟨result, hreturned, hfails, hannounces⟩
  have hending := (ending_eq_some s.watched d' a kind id result).mpr
    ⟨c, m, hmover, hwatched, hreturned⟩
  have hobserved := observe_ending s d' a call holder kind id result hending hget hwaits hfails
  exact hannounces (htold call _ kind result hobserved rfl)

theorem noticed_need (s s' : Notices) (a : NoticeAction) (hsound : s.Sound)
    (hstep : s.step a = some s') (h : s'.Noticed) : s.NoticeCond a := by
  have hsound' := sound_step s s' a hsound hstep
  cases step_effect s s' a hstep with
  | answer => trivial
  | moved _ c st st' ha hst hmoved =>
      rcases ha with ha | ha | ⟨payload, ha⟩ | ha | ha | ha <;> rw [ha] <;> trivial
  | daemon b d' hd =>
      cases b with
      | client act => exact tell_need s d' act (client_step s.daemon d' act hd) h.told
      | _ => trivial
  | announce sample hleaving =>
      intro sample' hleaving' call holder st hget hstatus hst hlistening
      rw [hleaving, Option.some.injEq] at hleaving'
      rw [← hleaving']
      by_cases hr : st.runtime = sample.handle.runtime
      · exact Or.inl hr
      · -- the event is not sent on the stream's channel, and the stream is to hear one
        right
        have hhears := h.shown call holder.announce st
          (by simp only [Table.get?_mapValues, hget, Option.map_some])
          (by simp only [Holder.announce, if_pos hstatus]) hst hlistening
        have hlt := (hears_iff _ call st hsound' hst hlistening).mp hhears
        simp only [Function.update_of_ne hr] at hlt
        exact hlt
  | connect call runtime hfree =>
      intro holder hget hstatus
      have hhears := h.shown call holder _ hget hstatus (Table.get?_set_self _ _ _) ⟨rfl, rfl⟩
      have hlt := (hears_iff _ call _ hsound' (Table.get?_set_self _ _ _) ⟨rfl, rfl⟩).mp hhears
      exact absurd hlt (lt_irrefl _)

/-- In every state of a run those that hold a lease on an evicted session have
    learned of the eviction, as far as they are due to, if and only if every
    step of the run meets the condition. -/
theorem noticed_iff (idleTtl : Duration) (settings : MemoryBudgetSettings)
    (daemonIdleTtl : Option Duration) (as : List NoticeAction) :
    Always step Noticed (init idleTtl settings daemonIdleTtl) as ↔
      Along step NoticeCond (init idleTtl settings daemonIdleTtl) as := by
  have hinit : (init idleTtl settings daemonIdleTtl).Noticed := by
    refine ⟨fun call holder kind result hget => ?_, fun call holder st hget => ?_⟩
    · exact absurd hget (by simp [init])
    · exact absurd hget (by simp [init])
  refine always_iff_along (I := Sound) ?_ ?_ as _ (sound_init idleTtl settings daemonIdleTtl)
    hinit (along_true as _)
  · intro s a s' hsound h hstep _ hcond
    exact ⟨sound_step s s' a hsound hstep, noticed_keep s s' a hsound h hstep hcond⟩
  · intro s a s' hsound _ hstep _ h
    exact noticed_need s s' a hsound hstep h

/-- One session may use 10 bytes. -/
def budget : MemoryBudgetSettings := ⟨some 10, none, 1⟩

/-- A client has been sent its `AttachOk`, and its session is marked for the
    memory it uses. -/
def markedWhileHeld : List NoticeAction :=
  (acquireFresh 0 ++ [Action.sect 0]).map (fun a => .daemon (.client a)) ++ [.answer 0] ++
    [.daemon (.memoryMonitor 10 0), .daemon (.memoryMonitor 10 0), .daemon (.memoryMonitor 10 100),
      .daemon (.memoryMonitor 10 0), .daemon (.memoryMonitor 10 0), .daemon (.memoryMonitor 10 0)]

/-- The eviction ends, and then the client makes a request. -/
def callAfterEviction : List NoticeAction :=
  markedWhileHeld ++
    [.announce, .daemon (.memoryMonitor 11 0), .daemon (.memoryMonitor 11 0),
      .daemon (.memoryMonitor 11 0),
      .daemon (.client (.start 5 (.forwardByLeaseId .call "lease_1" .null))),
      .daemon (.client (.sect 5))]

/-- The event is sent, and then the client connects to its endpoint. -/
def connectAfterEvent : List NoticeAction :=
  markedWhileHeld ++ [.announce, .connect 0]

theorem callAfterEviction_isSome :
    (run step (init 5 budget none) callAfterEviction).isSome = true := by
  decide

theorem connectAfterEvent_isSome :
    (run step (init 5 budget none) connectAfterEvent).isSome = true := by
  decide

/-- The client of an evicted session that makes a request is told that it has no
    lease, and one that connects to its stream is told nothing. -/
theorem eviction_unnoticed :
    (¬ ∀ (idleTtl : Duration) (settings : MemoryBudgetSettings)
        (daemonIdleTtl : Option Duration) (as : List NoticeAction) (s : Notices),
      run step (init idleTtl settings daemonIdleTtl) as = some s →
        ∀ call holder kind result, s.holders.get? call = some holder →
          holder.told = some (kind, result) → Announces kind result) ∧
    ¬ ∀ (idleTtl : Duration) (settings : MemoryBudgetSettings)
        (daemonIdleTtl : Option Duration) (as : List NoticeAction) (s : Notices),
      run step (init idleTtl settings daemonIdleTtl) as = some s →
        ∀ call holder st, s.holders.get? call = some holder → holder.status = .announced →
          s.listeners.get? call = some st → st.Listening → s.Hears call := by
  constructor
  · intro hall
    have hannounces := hall 5 budget none callAfterEviction
      ((run step (init 5 budget none) callAfterEviction).get callAfterEviction_isSome)
      (Option.some_get _).symm 0 _ .call (.ok none) rfl rfl
    exact not_announces_ok .call none hannounces
  · intro hall
    have hrun := (Option.some_get connectAfterEvent_isSome).symm
    have hhears := hall 5 budget none connectAfterEvent _ hrun 0 _ _ rfl rfl rfl ⟨rfl, rfl⟩
    have hsound := run_invariant (C := fun _ _ => True)
      (fun s a s' h hstep _ => sound_step s s' a h hstep) connectAfterEvent _ _ hrun
      (sound_init 5 budget none) (along_true _ _)
    have hlt := (hears_iff _ 0 _ hsound rfl ⟨rfl, rfl⟩).mp hhears
    exact absurd hlt (by decide)

end Notices

end Lspee
