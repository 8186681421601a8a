import Lspee.Theory.Isolation

/-!
# The Inbound Queue

What is queued to a server is queued at the end, taken at the front, and written
in that order. `pipe` is everything that has been written, is being written, or
waits: a step appends to it what it has queued (`pipe_step`), unless a write
fails, which ends the writer task and loses what waits.

A step that queues something is a call's, or a request that is not waited for,
and there is at most one message in it (`queuedBy_step`, `frame_cases`).

## Main definitions

* `WriterPc.hand`: What the writer task is writing.
* `Transport.pipe`: What was queued, in order, while the writer has not failed.
* `Transport.Flow`: What a step does to the queue and the writer task.
* `Sharing.accept`: The session with one more request in the queue.

## Theorems

* `step_flow`: Every step is one of these.
* `pipe_step`: The queue is first in, first out.
* `queuedBy_step`: What a step of the transport queues.
* `handles_step`, `stopped_step`: Who can send, and until when.
* `queue_eq`: What `LspRuntime::send` does.
* `frame_cases`, `send_cases`: What a frame of a stream and a message of the
  daemon lead to.
-/

namespace Lspee

open Transition Broadcast

/-- The message the writer task is writing. -/
def WriterPc.hand : WriterPc → List (Tagged Json)
  | .writing message => [message]
  | _ => []

namespace Transport

/-- What the server has read, what is being written, and what waits. -/
def pipe (t : Transport) : List (Tagged Json) :=
  t.received.reverse ++ t.writer.hand ++ t.inbound

@[simp]
theorem setPc_inbound (t : Transport) (c : CallId) (request : Json) (pc : CallPc) :
    (t.setPc c request pc).inbound = t.inbound := rfl

@[simp]
theorem setPc_writer (t : Transport) (c : CallId) (request : Json) (pc : CallPc) :
    (t.setPc c request pc).writer = t.writer := rfl

@[simp]
theorem setPc_received (t : Transport) (c : CallId) (request : Json) (pc : CallPc) :
    (t.setPc c request pc).received = t.received := rfl

theorem queuedBy_same (t t' : Transport) (h : t'.inbound = t.inbound) : t.queuedBy t' = [] := by
  rw [queuedBy, h]
  exact List.drop_length

theorem queuedBy_append (t t' : Transport) (ms : List (Tagged Json))
    (h : t'.inbound = t.inbound ++ ms) : t.queuedBy t' = ms := by
  rw [queuedBy, h]
  exact List.drop_left

theorem queuedBy_shorter (t t' : Transport) (message : Tagged Json)
    (h : t.inbound = message :: t'.inbound) : t.queuedBy t' = [] := by
  rw [queuedBy, h, List.length_cons]
  exact List.drop_of_length_le (Nat.le_succ _)

theorem sendInbound_eq_some (t : Transport) (message : Tagged Json)
    (result : Except String Transport) (h : t.sendInbound message = some result) :
    t.writer = .stopped ∧ result = .error "failed to queue inbound lsp message" ∨
      t.writer ≠ .stopped ∧ result = .ok { t with inbound := t.inbound ++ [message] } := by
  unfold sendInbound at h
  by_cases hwriter : t.writer = .stopped
  · rw [if_pos hwriter, Option.some.injEq] at h
    exact Or.inl ⟨hwriter, h.symm⟩
  · rw [if_neg hwriter, Option.ite_none_right_eq_some, Option.some.injEq] at h
    exact Or.inr ⟨hwriter, h.2.symm⟩

/-- How a call on the runtime goes on. A call that has queued its request fails
    only while it waits for the response. -/
inductive Advances (t t' : Transport) (c : CallId) (request : Json) :
    TransportAction → CallPc → CallPc → Prop where
  | unqueued (rx : Receiver) (hwriter : t.writer = .stopped) (hinbound : t'.inbound = t.inbound) :
      Advances t t' c request (.send c) (.sending rx)
        (.returned (.error "failed to queue inbound lsp message"))
  | queued (rx : Receiver) (hinbound : t'.inbound = t.inbound ++ [⟨some c, request⟩]) :
      Advances t t' c request (.send c) (.sending rx) (.receiving rx)
  | polled (rx rx' : Receiver) (hinbound : t'.inbound = t.inbound) :
      Advances t t' c request (.recv c) (.receiving rx) (.receiving rx')
  | answered (rx : Receiver) (m : Tagged LspMessage) (hm : m ∈ t.outbound.sent)
      (hexpects : expects request m = true) (hinbound : t'.inbound = t.inbound) :
      Advances t t' c request (.recv c) (.receiving rx) (.returned (.ok m))
  | failed (rx : Receiver) (hinbound : t'.inbound = t.inbound) :
      Advances t t' c request (.recv c) (.receiving rx) (.returned (.error recvError))

theorem recvCall_advances (t t' : Transport) (c : CallId) (request : Json) (rx : Receiver)
    (h : t.recvCall c request rx = some t') :
    ∃ pc', t' = t.setPc c request pc' ∧ Advances t t' c request (.recv c) (.receiving rx) pc' := by
  unfold recvCall at h
  cases hrecv : t.outbound.recv t.senders rx with
  | value m rx' =>
      simp only [hrecv] at h
      have hm : m ∈ t.outbound.sent := Channel.mem_sent_of_recv _ _ _ rx' m hrecv
      by_cases hexpects : expects request m = true
      · rw [if_pos hexpects, Option.some.injEq] at h
        exact ⟨_, h.symm, .answered rx m hm hexpects (by rw [← h]; rfl)⟩
      · rw [if_neg hexpects, Option.some.injEq] at h
        exact ⟨_, h.symm, .polled rx rx' (by rw [← h]; rfl)⟩
  | lagged count rx' =>
      simp only [hrecv, Option.some.injEq] at h
      exact ⟨_, h.symm, .failed rx (by rw [← h]; rfl)⟩
  | closed =>
      simp only [hrecv, Option.some.injEq] at h
      exact ⟨_, h.symm, .failed rx (by rw [← h]; rfl)⟩
  | pending => simp only [hrecv, reduceCtorEq] at h

/-- What a step does to the queue and the writer task. -/
inductive Flow (t : Transport) (a : TransportAction) (t' : Transport) : Prop where
  | quiet (hreceived : t'.received = t.received) (hwriter : t'.writer = t.writer)
      (hinbound : t'.inbound = t.inbound)
  | queued (c : CallId) (request : Json) (rx : Receiver) (ha : a = .send c)
      (hcall : t.calls.get? c = some ⟨request, .sending rx⟩) (hreceived : t'.received = t.received)
      (hwriter : t'.writer = t.writer) (hinbound : t'.inbound = t.inbound ++ [⟨some c, request⟩])
  | forwarded (owner : Owner) (message : Json) (ha : a = .forward owner message)
      (hreceived : t'.received = t.received) (hwriter : t'.writer = t.writer)
      (hinbound : t'.inbound = t.inbound ++ [⟨none, message⟩])
  | taken (message : Tagged Json) (hwriter : t.writer = .idle)
      (hinbound : t.inbound = message :: t'.inbound) (hreceived : t'.received = t.received)
      (hwriting : t'.writer = .writing message)
  | wrote (message : Tagged Json) (hwriter : t.writer = .writing message)
      (hreceived : t'.received = message :: t.received) (hidle : t'.writer = .idle)
      (hinbound : t'.inbound = t.inbound)
  | failed (delivered : Bool) (ha : a = .writerFailed delivered) (hstopped : t'.writer = .stopped)
      (hinbound : t'.inbound = [])
  | ended (hwriter : t.writer = .idle) (hempty : t.inbound = []) (hhandles : t.handles = [])
      (hreceived : t'.received = t.received) (hstopped : t'.writer = .stopped)
      (hinbound : t'.inbound = [])

theorem step_flow (t t' : Transport) (a : TransportAction) (hstep : t.step a = some t') :
    Flow t a t' := by
  cases a with
  | clone source n | drop owner | emit caller payload | exit | readEnd | readError =>
      simp only [step, Option.ite_none_right_eq_some, Option.some.injEq] at hstep
      rw [← hstep.2]
      exact .quiet rfl rfl rfl
  | begin c source request =>
      simp only [step, Option.ite_none_right_eq_some, Option.some.injEq] at hstep
      rcases beginCall_cases { t with handles := .call c :: t.handles } c request with
        ⟨pc, hbegin, _⟩
      rw [← hstep.2, hbegin]
      exact .quiet rfl rfl rfl
  | send c =>
      simp only [step] at hstep
      split at hstep
      · rename_i request rx hcall
        unfold sendCall at hstep
        -- An error queues nothing.
        cases hsend : t.sendInbound ⟨some c, request⟩ with
        | none => simp only [hsend, reduceCtorEq] at hstep
        | some result =>
            rcases sendInbound_eq_some t _ result hsend with ⟨_, hresult⟩ | ⟨_, hresult⟩
            · simp only [hsend, hresult, Option.some.injEq] at hstep
              rw [← hstep]
              exact .quiet rfl rfl rfl
            · simp only [hsend, hresult, Option.some.injEq] at hstep
              rw [← hstep]
              exact .queued c request rx rfl hcall rfl rfl rfl
      · exact absurd hstep (by simp)
  | recv c =>
      simp only [step] at hstep
      split at hstep
      · rename_i request rx hcall
        rcases recvCall_advances t t' c request rx hstep with ⟨pc, ht', _⟩
        rw [ht']
        exact .quiet rfl rfl rfl
      · exact absurd hstep (by simp)
  | forward owner message =>
      simp only [step, Option.ite_none_right_eq_some] at hstep
      cases hsend : t.sendInbound ⟨none, message⟩ with
      | none => simp only [hsend, reduceCtorEq, and_false] at hstep
      | some result =>
          rcases sendInbound_eq_some t _ result hsend with ⟨_, hresult⟩ | ⟨_, hresult⟩
          · simp only [hsend, hresult, Option.some.injEq] at hstep
            rw [← hstep.2]
            exact .quiet rfl rfl rfl
          · simp only [hsend, hresult, Option.some.injEq] at hstep
            rw [← hstep.2]
            exact .forwarded owner message rfl rfl rfl rfl
  | writerTake =>
      simp only [step] at hstep
      split at hstep
      · rename_i message rest hwriter hinbound
        rw [← Option.some.inj hstep]
        exact .taken message hwriter hinbound rfl rfl
      · exact absurd hstep (by simp)
  | writerWrote =>
      simp only [step] at hstep
      split at hstep
      · rename_i message hwriter
        rw [← Option.some.inj hstep]
        exact .wrote message hwriter rfl rfl rfl
      · exact absurd hstep (by simp)
  | writerFailed delivered =>
      simp only [step] at hstep
      split at hstep
      · rw [← Option.some.inj hstep]
        exact .failed delivered rfl rfl rfl
      · exact absurd hstep (by simp)
  | writerEnd =>
      simp only [step, Option.ite_none_right_eq_some, Option.some.injEq] at hstep
      rw [← hstep.2]
      exact .ended hstep.1.1 hstep.1.2.1 hstep.1.2.2 rfl rfl hstep.1.2.1
  | read =>
      simp only [step] at hstep
      split at hstep
      · rw [← Option.some.inj hstep]
        exact .quiet rfl rfl rfl
      · exact absurd hstep (by simp)

/-- The queue is first in, first out: unless a write fails, a step appends what
    it queues, and what is taken is written. -/
theorem pipe_step (t t' : Transport) (a : TransportAction) (hstep : t.step a = some t')
    (ha : ∀ delivered, a ≠ .writerFailed delivered) : t'.pipe = t.pipe ++ t.queuedBy t' := by
  have happend : ∀ ms, t'.received = t.received → t'.writer = t.writer →
      t'.inbound = t.inbound ++ ms → t'.pipe = t.pipe ++ t.queuedBy t' := by
    intro ms hreceived hwriter hinbound
    rw [queuedBy_append t t' ms hinbound, pipe, pipe, hreceived, hwriter, hinbound,
      List.append_assoc _ _ ms]
  cases step_flow t t' a hstep with
  | quiet hreceived hwriter hinbound =>
      exact happend [] hreceived hwriter (by rw [hinbound, List.append_nil])
  | queued c request rx _ hcall hreceived hwriter hinbound =>
      exact happend _ hreceived hwriter hinbound
  | forwarded owner message _ hreceived hwriter hinbound =>
      exact happend _ hreceived hwriter hinbound
  | taken message hwriter hinbound hreceived hwriting =>
      -- The oldest message goes from the queue into the hand.
      rw [queuedBy_shorter t t' message hinbound, pipe, pipe, hreceived, hwriter, hwriting,
        hinbound]
      simp only [WriterPc.hand, List.append_nil, List.append_assoc, List.cons_append,
        List.nil_append]
  | wrote message hwriter hreceived hidle hinbound =>
      -- And from there to the server.
      rw [queuedBy_same t t' hinbound, pipe, pipe, hreceived, hwriter, hidle, hinbound]
      simp only [WriterPc.hand, List.reverse_cons, List.append_nil]
  | failed delivered hfailed hstopped hinbound => exact absurd hfailed (ha delivered)
  | ended hwriter hempty _ hreceived hstopped hinbound =>
      rw [queuedBy_same t t' (by rw [hinbound, hempty]), pipe, pipe, hreceived, hwriter, hstopped,
        hinbound, hempty]
      simp only [WriterPc.hand, List.append_nil]

/-- A step queues nothing, or the request of a call, or a message that is not
    waited for. -/
theorem queuedBy_step (t t' : Transport) (a : TransportAction) (hstep : t.step a = some t') :
    t.queuedBy t' = [] ∨
      (∃ c request rx, a = .send c ∧ t.calls.get? c = some ⟨request, .sending rx⟩ ∧
        t.queuedBy t' = [⟨some c, request⟩]) ∨
      ∃ owner message, a = .forward owner message := by
  cases step_flow t t' a hstep with
  | quiet _ _ hinbound => exact Or.inl (queuedBy_same t t' hinbound)
  | queued c request rx ha hcall _ _ hinbound =>
      exact Or.inr (Or.inl ⟨c, request, rx, ha, hcall, queuedBy_append t t' _ hinbound⟩)
  | forwarded owner message ha _ _ _ => exact Or.inr (Or.inr ⟨owner, message, ha⟩)
  | taken message _ hinbound _ _ => exact Or.inl (queuedBy_shorter t t' message hinbound)
  | wrote _ _ _ _ hinbound => exact Or.inl (queuedBy_same t t' hinbound)
  | failed _ _ _ hinbound =>
      left
      rw [queuedBy, hinbound]
      exact List.drop_nil
  | ended _ hempty _ _ _ hinbound => exact Or.inl (queuedBy_same t t' (by rw [hinbound, hempty]))

/-! ### The calls -/

/-- The calls a step leaves alone. -/
def stays (a : TransportAction) (c : CallId) : Prop := a ≠ .send c ∧ a ≠ .recv c

/-- A call stays as it is while others move, and goes on by its own steps. -/
theorem call_step (t t' : Transport) (a : TransportAction) (hstep : t.step a = some t')
    (c : CallId) (request : Json) (pc : CallPc) (hcall : t.calls.get? c = some ⟨request, pc⟩) :
    stays a c ∧ t'.calls.get? c = some ⟨request, pc⟩ ∨
      ∃ pc', t'.calls.get? c = some ⟨request, pc'⟩ ∧ Advances t t' c request a pc pc' := by
  -- Setting the place of another call leaves this one.
  have hother : ∀ (u : Transport) d r pc', d ≠ c → u.calls = t.calls →
      (u.setPc d r pc').calls.get? c = some ⟨request, pc⟩ := by
    intro u d r pc' hd hu
    rw [setPc_calls, Table.get?_set_ne _ _ _ _ (Ne.symm hd), hu, hcall]
  cases a with
  | begin d source r =>
      simp only [step, Option.ite_none_right_eq_some, Option.some.injEq] at hstep
      rcases beginCall_cases { t with handles := .call d :: t.handles } d r with ⟨pc', hbegin, _⟩
      -- A call that is there cannot begin.
      have hd : d ≠ c := fun hd => by
        rw [← hd, hstep.1.2.1] at hcall
        exact absurd hcall (by simp)
      rw [← hstep.2, hbegin]
      exact Or.inl ⟨by simp [stays], hother _ d r pc' hd rfl⟩
  | send d =>
      by_cases hd : d = c
      -- The send of another call, before the one of this.
      swap
      · have hrest := hstep
        simp only [step] at hrest
        split at hrest
        · rename_i r rx _
          refine Or.inl ⟨by simp [stays, hd], ?_⟩
          unfold sendCall at hrest
          cases hsend : t.sendInbound ⟨some d, r⟩ with
          | none => simp only [hsend, reduceCtorEq] at hrest
          | some result =>
              rcases sendInbound_eq_some t _ result hsend with ⟨_, hresult⟩ | ⟨_, hresult⟩
              · simp only [hsend, hresult, Option.some.injEq] at hrest
                rw [← hrest]
                exact hother t d r _ hd rfl
              · simp only [hsend, hresult, Option.some.injEq] at hrest
                rw [← hrest]
                exact hother _ d r _ hd rfl
        · exact absurd hrest (by simp)
      right
      rw [hd] at hstep ⊢
      simp only [step] at hstep
      split at hstep
      · rename_i r rx hsending
        rw [hcall, Option.some.injEq, Call.mk.injEq] at hsending
        rw [hsending.1, hsending.2]
        unfold sendCall at hstep
        cases hsend : t.sendInbound ⟨some c, r⟩ with
        | none => simp only [hsend, reduceCtorEq] at hstep
        | some result =>
            rcases sendInbound_eq_some t _ result hsend with ⟨hwriter, hresult⟩ | ⟨_, hresult⟩
            · simp only [hsend, hresult, Option.some.injEq] at hstep
              rw [← hstep]
              exact ⟨_, Table.get?_set_self _ _ _, .unqueued rx hwriter rfl⟩
            · simp only [hsend, hresult, Option.some.injEq] at hstep
              rw [← hstep]
              exact ⟨_, Table.get?_set_self _ _ _, .queued rx rfl⟩
      · exact absurd hstep (by simp)
  | recv d =>
      simp only [step] at hstep
      split at hstep
      · rename_i r rx hreceiving
        rcases recvCall_advances t t' d r rx hstep with ⟨pc', ht', hadvances⟩
        by_cases hd : d = c
        · rw [hd, hcall, Option.some.injEq, Call.mk.injEq] at hreceiving
          rw [hd, ← hreceiving.1] at ht' hadvances
          rw [hd, hreceiving.2]
          exact Or.inr ⟨pc', by rw [ht']; exact Table.get?_set_self _ _ _, hadvances⟩
        · rw [ht']
          exact Or.inl ⟨by simp [stays, hd], hother t d r pc' hd rfl⟩
      · exact absurd hstep (by simp)
  | read =>
      refine Or.inl ⟨by simp [stays], ?_⟩
      cases step_effect t t' _ hstep with
      | traffic _ _ ha htraffic => rw [htraffic.calls, hcall]
      | broadcast caller payload rest hreading hstdout => exact hcall
      | ended _ ha hreading => exact hcall
  | _ =>
      refine Or.inl ⟨by simp [stays], ?_⟩
      cases step_effect t t' _ hstep with
      | traffic _ _ ha htraffic => rw [htraffic.calls, hcall]
      | ended _ ha hreading => exact hcall

/-- A call is there because it has begun. -/
theorem call_begun (t t' : Transport) (a : TransportAction) (hstep : t.step a = some t')
    (c : CallId) (hnone : t.calls.get? c = none)
    (hbegin : ∀ source request, a ≠ .begin c source request) : t'.calls.get? c = none := by
  cases step_effect t t' a hstep with
  | traffic _ _ ha htraffic => rw [htraffic.calls, hnone]
  | begin d source request hfree =>
      rcases beginCall_cases { t with handles := .call d :: t.handles } d request with ⟨pc, hpc, _⟩
      have hne : c ≠ d := fun hd => hbegin source request (by rw [hd])
      rw [hpc, setPc_calls, Table.get?_set_ne _ _ _ _ hne]
      exact hnone
  | unqueued d request rx error hcall hwriter =>
      have hne : c ≠ d := fun hd => by rw [hd, hcall] at hnone; exact absurd hnone (by simp)
      rw [setPc_calls, Table.get?_set_ne _ _ _ _ hne, hnone]
  | queued d request rx hcall hwriter =>
      have hne : c ≠ d := fun hd => by rw [hd, hcall] at hnone; exact absurd hnone (by simp)
      rw [setPc_calls, Table.get?_set_ne _ _ _ _ hne]
      exact hnone
  | polled d request rx _ hcall hrecv =>
      have hne : c ≠ d := fun hd => by rw [hd, hcall] at hnone; exact absurd hnone (by simp)
      rcases recvCall_advances t t' d request rx hrecv with ⟨pc', ht', _⟩
      rw [ht', setPc_calls, Table.get?_set_ne _ _ _ _ hne, hnone]
  | broadcast caller payload rest hreading hstdout => exact hnone
  | ended _ ha hreading => exact hnone

/-- What was broadcast stays. -/
theorem sent_step (t t' : Transport) (a : TransportAction) (hstep : t.step a = some t')
    (m : Tagged LspMessage) (hm : m ∈ t.outbound.sent) : m ∈ t'.outbound.sent := by
  cases step_effect t t' a hstep with
  | traffic _ _ ha htraffic =>
      rw [htraffic.outbound]
      exact hm
  | begin d source request hfree =>
      rcases beginCall_cases { t with handles := .call d :: t.handles } d request with ⟨pc, hpc, _⟩
      rw [hpc]
      exact hm
  | unqueued d request rx error hcall hwriter => exact hm
  | queued d request rx hcall hwriter => exact hm
  | polled d request rx _ hcall hrecv =>
      rcases recvCall_advances t t' d request rx hrecv with ⟨pc', ht', _⟩
      rw [ht']
      exact hm
  | broadcast caller payload rest hreading hstdout => exact List.mem_append_left _ hm
  | ended _ ha hreading => exact hm

/-! ### The handles -/

/-- A handle is cloned from another, dropped, or stays. -/
theorem handles_step (t t' : Transport) (a : TransportAction) (hstep : t.step a = some t') :
    t'.handles = t.handles ∨ (∃ owner, a = .drop owner ∧ t'.handles = t.handles.erase owner) ∨
      ∃ source owner, source ∈ t.handles ∧ t'.handles = owner :: t.handles := by
  cases a with
  | clone source n =>
      simp only [step, Option.ite_none_right_eq_some, Option.some.injEq] at hstep
      rw [← hstep.2]
      exact Or.inr (Or.inr ⟨source, _, hstep.1.1, rfl⟩)
  | drop owner =>
      simp only [step, Option.ite_none_right_eq_some, Option.some.injEq] at hstep
      rw [← hstep.2]
      exact Or.inr (Or.inl ⟨owner, rfl, rfl⟩)
  | begin c source request =>
      simp only [step, Option.ite_none_right_eq_some, Option.some.injEq] at hstep
      rcases beginCall_cases { t with handles := .call c :: t.handles } c request with
        ⟨pc, hbegin, _⟩
      rw [← hstep.2, hbegin]
      exact Or.inr (Or.inr ⟨source, _, hstep.1.1, rfl⟩)
  | recv c =>
      simp only [step] at hstep
      split at hstep
      · rename_i request rx hcall
        rcases recvCall_advances t t' c request rx hstep with ⟨pc, ht', _⟩
        rw [ht']
        exact Or.inl rfl
      · exact absurd hstep (by simp)
  | send c =>
      simp only [step] at hstep
      split at hstep
      · rename_i request rx hcall
        unfold sendCall at hstep
        cases hsend : t.sendInbound ⟨some c, request⟩ with
        | none => simp only [hsend, reduceCtorEq] at hstep
        | some result =>
            rcases sendInbound_eq_some t _ result hsend with ⟨_, hresult⟩ | ⟨_, hresult⟩
            · simp only [hsend, hresult, Option.some.injEq] at hstep
              rw [← hstep]
              exact Or.inl rfl
            · simp only [hsend, hresult, Option.some.injEq] at hstep
              rw [← hstep]
              exact Or.inl rfl
      · exact absurd hstep (by simp)
  | forward owner message =>
      simp only [step, Option.ite_none_right_eq_some] at hstep
      cases hsend : t.sendInbound ⟨none, message⟩ with
      | none => simp only [hsend, reduceCtorEq, and_false] at hstep
      | some result =>
          rcases sendInbound_eq_some t _ result hsend with ⟨_, hresult⟩ | ⟨_, hresult⟩
          · simp only [hsend, hresult, Option.some.injEq] at hstep
            rw [← hstep.2]
            exact Or.inl rfl
          · simp only [hsend, hresult, Option.some.injEq] at hstep
            rw [← hstep.2]
            exact Or.inl rfl
  | writerEnd | emit caller payload | exit | readEnd | readError =>
      simp only [step, Option.ite_none_right_eq_some, Option.some.injEq] at hstep
      rw [← hstep.2]
      exact Or.inl rfl
  | writerTake | writerWrote | writerFailed delivered | read =>
      simp only [step] at hstep
      split at hstep
      · rw [← Option.some.inj hstep]
        exact Or.inl rfl
      · exact absurd hstep (by simp)

/-- A handle is there until it is dropped. -/
theorem handle_stays (t t' : Transport) (a : TransportAction) (hstep : t.step a = some t')
    (owner : Owner) (hmem : owner ∈ t.handles) (hdrop : a ≠ .drop owner) : owner ∈ t'.handles := by
  rcases handles_step t t' a hstep with heq | ⟨other, ha, heq⟩ | ⟨source, other, _, heq⟩
  · rw [heq]
    exact hmem
  · have hne : owner ≠ other := fun h => hdrop (by rw [ha, h])
    rw [heq]
    exact (List.mem_erase_of_ne hne).mpr hmem
  · rw [heq]
    exact List.mem_cons_of_mem _ hmem

/-- Nobody comes back, once the last handle is dropped. -/
theorem handles_gone (t t' : Transport) (a : TransportAction) (hstep : t.step a = some t')
    (hgone : t.handles = []) : t'.handles = [] := by
  rcases handles_step t t' a hstep with heq | ⟨owner, _, heq⟩ | ⟨source, _, hmem, _⟩
  · rw [heq, hgone]
  · rw [heq, hgone]
    rfl
  · rw [hgone] at hmem
    exact absurd hmem List.not_mem_nil

/-- The writer task ends by a write that fails, or when nobody can send. -/
theorem stopped_step (t t' : Transport) (a : TransportAction) (hstep : t.step a = some t')
    (hstopped : t'.writer = .stopped) :
    t.writer = .stopped ∨ (∃ delivered, a = .writerFailed delivered) ∨ t.handles = [] := by
  cases step_flow t t' a hstep with
  | quiet _ hwriter _ => exact Or.inl (by rw [← hwriter, hstopped])
  | queued _ _ _ _ _ _ hwriter _ => exact Or.inl (by rw [← hwriter, hstopped])
  | forwarded _ _ _ _ hwriter _ => exact Or.inl (by rw [← hwriter, hstopped])
  | taken message _ _ _ hwriting =>
      rw [hwriting] at hstopped
      exact absurd hstopped (by simp)
  | wrote _ _ _ hidle _ =>
      rw [hidle] at hstopped
      exact absurd hstopped (by simp)
  | failed delivered ha _ _ => exact Or.inr (Or.inl ⟨delivered, ha⟩)
  | ended _ _ hhandles _ _ _ => exact Or.inr (Or.inr hhandles)

end Transport

namespace Sharing

/-- The session when a request of this party has been queued. -/
def accept (h : Sharing) (call : CallId) (party : Party) (message : Json) : Sharing :=
  { h with
    transport := { h.transport with inbound := h.transport.inbound ++ [⟨some call, message⟩] }
    requests := h.requests.set call party }

theorem queuedBy_accept (h : Sharing) (call : CallId) (party : Party) (message : Json) :
    h.transport.queuedBy (h.accept call party message).transport = [⟨some call, message⟩] :=
  Transport.queuedBy_append _ _ _ rfl

/-- Sending fails when the writer task is gone, and otherwise queues the
    message. -/
theorem queue_eq (h : Sharing) (call : CallId) (party : Party) (message : Json)
    (result : Except String Sharing) (hqueue : h.queue call party message = some result) :
    h.transport.writer = .stopped ∧ result = .error "failed to queue inbound lsp message" ∨
      h.transport.writer ≠ .stopped ∧ result = .ok (h.accept call party message) := by
  unfold queue at hqueue
  cases hsend : h.transport.sendInbound ⟨some call, message⟩ with
  | none => simp only [hsend, reduceCtorEq] at hqueue
  | some sent =>
      rcases Transport.sendInbound_eq_some _ _ sent hsend with ⟨hwriter, hsent⟩ | ⟨hwriter, hsent⟩
      · simp only [hsend, hsent, Option.some.injEq] at hqueue
        exact Or.inl ⟨hwriter, hqueue.symm⟩
      · simp only [hsend, hsent, Option.some.injEq] at hqueue
        exact Or.inr ⟨hwriter, hqueue.symm⟩

/-- A frame is read over, or queued; if the writer task is gone, the connection
    fails. -/
theorem frame_cases (h h' : Sharing) (n : Nat) (frame : StreamFrame) (call : CallId)
    (hstep : h.step (.frame n frame call) = some h') :
    ∃ s, h.streams.get? n = some s ∧ s.reading = true ∧ h.fresh call = true ∧
      ((frame.leaseId ≠ s.leaseId ∨ frame.frameType ≠ .lspIn) ∧ h' = h ∨
        (frame.leaseId = s.leaseId ∧ frame.frameType = .lspIn) ∧
          (h.transport.writer = .stopped ∧ h' = { h with streams := h.streams.set n s.fail } ∨
            h.transport.writer ≠ .stopped ∧ h' = h.accept call (.stream n) frame.payload)) := by
  simp only [step] at hstep
  cases hs : h.streams.get? n with
  | none => simp only [hs, reduceCtorEq] at hstep
  | some s =>
      simp only [hs, Option.ite_none_right_eq_some] at hstep
      rcases hstep with ⟨⟨hreading, hfresh⟩, hstep⟩
      refine ⟨s, rfl, hreading, hfresh, ?_⟩
      unfold handleFrame at hstep
      by_cases hlease : frame.leaseId ≠ s.leaseId
      · rw [if_pos hlease, Option.some.injEq] at hstep
        exact Or.inl ⟨Or.inl hlease, hstep.symm⟩
      rw [if_neg hlease] at hstep
      have hlease := not_not.mp hlease
      cases htype : frame.frameType with
      | lspOut | streamError =>
          simp only [htype, Option.some.injEq] at hstep
          exact Or.inl ⟨Or.inr (by simp), hstep.symm⟩
      | lspIn =>
          simp only [htype] at hstep
          right
          refine ⟨⟨hlease, rfl⟩, ?_⟩
          cases hqueue : h.queue call (.stream n) frame.payload with
          | none => simp only [hqueue, reduceCtorEq] at hstep
          | some result =>
              rcases queue_eq h call _ _ result hqueue with ⟨hwriter, hresult⟩ | ⟨hwriter, hresult⟩
              · simp only [hqueue, hresult, Option.some.injEq] at hstep
                exact Or.inl ⟨hwriter, hstep.symm⟩
              · simp only [hqueue, hresult, Option.some.injEq] at hstep
                exact Or.inr ⟨hwriter, hstep.symm⟩

/-- A message that is not waited for is queued, or lost with the writer task. -/
theorem send_cases (h h' : Sharing) (client : Option Nat) (call : CallId) (owner : Owner)
    (message : Json) (hstep : h.step (.send client call owner message) = some h') :
    h.fresh call = true ∧ (h' = h ∨ h' = h.accept call (caller client) message) := by
  simp only [step, Option.ite_none_right_eq_some] at hstep
  refine ⟨hstep.1.2, ?_⟩
  cases hqueue : h.queue call (caller client) message with
  | none => simp only [hqueue, reduceCtorEq, and_false] at hstep
  | some result =>
      rcases queue_eq h call _ _ result hqueue with ⟨_, hresult⟩ | ⟨_, hresult⟩
      · simp only [hqueue, hresult, Option.some.injEq] at hstep
        exact Or.inl hstep.2.symm
      · simp only [hqueue, hresult, Option.some.injEq] at hstep
        exact Or.inr hstep.2.symm

end Sharing

end Lspee
