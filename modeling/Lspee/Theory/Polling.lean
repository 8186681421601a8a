import Lspee.Core.Runtime

/-!
# What a Call Ends With

A call's loop reads its receiver until a message bears the id of its request.
What the loop makes of the messages broadcast so far is `Settles`: the result
the call has returned, or that its own polls return from here. By
`settles_receiving` it is the search of the channel for the first message with
the id, so that following a call means following that search: it starts when
the call queues its request, and only a broadcast changes it.

A call that has not returned holds a handle of its own, and a handle is a
sender, so its receiver never finds the channel closed.

`Effect` lists what a step can do to the calls and the channel, and is all the
theory of calls uses of the step function.

## Main definitions

* `Queued`: The call's request has been handed to the writer.
* `InTransit`: A message on its way to the server, or read by it.
* `isTraffic`, `Traffic`: A step that is no call's and broadcasts nothing.
* `Effect`: What a step does.
* `Owned`: The handles and the receivers of the calls.
* `Caused`: A marked message comes after the request it answers.
* `Settles`: A result the call's own polls lead to.

## Theorems

* `step_effect`: Every step has one of the effects.
* `owned_step`, `caused_step`: The invariants.
* `recvCall_cases`: What one poll does.
* `settles_receiving`, `settles_not_receiving`: What the polls of a call lead to.
* `settles_congr`: What that depends on.
-/

namespace Lspee

open Transition Broadcast

namespace Transport

/-! ### What a step does -/

/-- The call's request has been handed to the writer, or the call has
    returned. -/
def Queued (t : Transport) (c : CallId) : Prop :=
  ∃ request pc, t.calls.get? c = some ⟨request, pc⟩ ∧ ∀ rx, pc ≠ .sending rx

/-- A message on its way to the server, or read by it. -/
def InTransit (t : Transport) (m : Tagged Json) : Prop :=
  m ∈ t.inbound ∨ t.writer = .writing m ∨ m ∈ t.received

/-- A step that moves no call and broadcasts nothing. -/
structure Traffic (t t' : Transport) : Prop where
  calls : t'.calls = t.calls
  outbound : t'.outbound = t.outbound
  reading : t'.reading = t.reading
  handles : ∀ c ∈ t.handles, c ∈ t'.handles ∨ t.mayDrop c = true
  transit : ∀ m, t'.InTransit m → t.InTransit m ∨ m.caller = none
  stdout : ∀ m ∈ t'.stdout, m ∈ t.stdout ∨ m.caller = none ∨
    m.content.get "method" = none ∧ ∃ m' ∈ t.received, m'.caller = m.caller

/-- An action of no call and not of the reader. -/
def isTraffic : TransportAction → Bool
  | .begin _ _ _ | .send _ | .recv _ | .read | .readEnd | .readError => false
  | _ => true

/-- What a step does to the calls and the channel. -/
inductive Effect (t : Transport) : TransportAction → Transport → Prop where
  | traffic (a : TransportAction) (t' : Transport) (ha : isTraffic a = true)
      (h : Traffic t t') : Effect t a t'
  | begin (c : CallId) (source : Owner) (request : Json) (hfree : t.calls.get? c = none) :
      Effect t (.begin c source request)
        (beginCall { t with handles := .call c :: t.handles } c request)
  | unqueued (c : CallId) (request : Json) (rx : Receiver) (error : String)
      (hcall : t.calls.get? c = some ⟨request, .sending rx⟩) (hwriter : t.writer = .stopped) :
      Effect t (.send c) (t.setPc c request (.returned (.error error)))
  | queued (c : CallId) (request : Json) (rx : Receiver)
      (hcall : t.calls.get? c = some ⟨request, .sending rx⟩) (hwriter : t.writer ≠ .stopped) :
      Effect t (.send c) (setPc { t with inbound := t.inbound ++ [⟨some c, request⟩] } c request
        (.receiving rx))
  | polled (c : CallId) (request : Json) (rx : Receiver) (t' : Transport)
      (hcall : t.calls.get? c = some ⟨request, .receiving rx⟩)
      (hrecv : t.recvCall c request rx = some t') : Effect t (.recv c) t'
  | broadcast (caller : Option CallId) (payload : Json) (rest : List (Tagged Json))
      (hreading : t.reading = true) (hstdout : t.stdout = ⟨caller, payload⟩ :: rest) :
      Effect t .read { t with
        stdout := rest
        outbound := t.outbound.send ⟨caller, LspMessage.fromJson payload⟩ }
  | ended (a : TransportAction) (ha : a = .readEnd ∨ a = .readError) (hreading : t.reading = true) :
      Effect t a { t with reading := false }

theorem traffic_inbound (t : Transport) (message : Json) :
    Traffic t { t with inbound := t.inbound ++ [⟨none, message⟩] } where
  calls := rfl
  outbound := rfl
  reading := rfl
  handles := fun c hc => Or.inl hc
  stdout := fun m hm => Or.inl hm
  transit := by
    intro m hm
    rcases hm with hm | hm | hm
    · rcases List.mem_append.mp hm with hm | hm
      · exact Or.inl (Or.inl hm)
      · rw [List.mem_singleton.mp hm]
        exact Or.inr rfl
    · exact Or.inl (Or.inr (Or.inl hm))
    · exact Or.inl (Or.inr (Or.inr hm))

theorem sendCall_effect (t t' : Transport) (c : CallId) (request : Json) (rx : Receiver)
    (hcall : t.calls.get? c = some ⟨request, .sending rx⟩)
    (h : t.sendCall c request rx = some t') : Effect t (.send c) t' := by
  unfold sendCall sendInbound at h
  by_cases hwriter : t.writer = .stopped
  · simp only [if_pos hwriter, Option.some.injEq] at h
    rw [← h]
    exact .unqueued c request rx _ hcall hwriter
  · by_cases hroom : t.inbound.length < channelCapacity
    · simp only [if_neg hwriter, if_pos hroom, Option.some.injEq] at h
      rw [← h]
      exact .queued c request rx hcall hwriter
    · simp only [if_neg hwriter, if_neg hroom] at h
      exact absurd h (by simp)

/-- A message the server may write answers one it has read, if it is marked. -/
theorem mayEmit_marked (t : Transport) (caller : Option CallId) (payload : Json)
    (h : t.mayEmit caller payload = true) :
    caller = none ∨ payload.get "method" = none ∧ ∃ m ∈ t.received, m.caller = caller := by
  cases caller with
  | none => exact Or.inl rfl
  | some c =>
      right
      simp only [mayEmit, Bool.and_eq_true, Option.isNone_iff_eq_none, List.any_eq_true,
        beq_iff_eq] at h
      rcases h with ⟨hmethod, m, hm, hcaller, _⟩
      exact ⟨hmethod, m, hm, hcaller⟩

theorem step_effect (t t' : Transport) (a : TransportAction) (h : t.step a = some t') :
    Effect t a t' := by
  cases a with
  | clone source n =>
      simp only [step, Option.ite_none_right_eq_some, Option.some.injEq] at h
      rw [← h.2]
      exact .traffic _ _ rfl ⟨rfl, rfl, rfl, fun c hc => Or.inl (List.mem_cons_of_mem _ hc),
        fun m hm => Or.inl hm, fun m hm => Or.inl hm⟩
  | drop owner =>
      -- Only handles that no call is polling may go.
      simp only [step, Option.ite_none_right_eq_some, Option.some.injEq] at h
      rw [← h.2]
      refine .traffic _ _ rfl ⟨rfl, rfl, rfl, fun c hc => ?_, fun m hm => Or.inl hm,
        fun m hm => Or.inl hm⟩
      by_cases hne : c = owner
      · rw [hne]
        exact Or.inr h.1.2
      · exact Or.inl ((List.mem_erase_of_ne hne).mpr hc)
  | begin c source request =>
      simp only [step, Option.ite_none_right_eq_some, Option.some.injEq] at h
      rw [← h.2]
      exact .begin c source request h.1.2.1
  | send c =>
      simp only [step] at h
      split at h
      · exact sendCall_effect t t' c _ _ ‹_› h
      · exact absurd h (by simp)
  | recv c =>
      simp only [step] at h
      split at h
      · exact .polled c _ _ t' ‹_› h
      · exact absurd h (by simp)
  -- Queueing fails with the writer task gone, succeeds with room, and waits otherwise.
  | forward owner message =>
      simp only [step, sendInbound, Option.ite_none_right_eq_some] at h
      by_cases hwriter : t.writer = .stopped
      · simp only [if_pos hwriter, Option.some.injEq] at h
        rw [← h.2]
        exact .traffic _ _ rfl ⟨rfl, rfl, rfl, fun c hc => Or.inl hc, fun m hm => Or.inl hm,
          fun m hm => Or.inl hm⟩
      · by_cases hroom : t.inbound.length < channelCapacity
        · simp only [if_neg hwriter, if_pos hroom, Option.some.injEq] at h
          rw [← h.2]
          exact .traffic _ _ rfl (traffic_inbound t message)
        · simp only [if_neg hwriter, if_neg hroom] at h
          exact absurd h.2 (by simp)
  | writerTake =>
      simp only [step] at h
      split at h
      · rename_i message rest hwriter hinbound
        rw [← Option.some.inj h]
        -- What is being written was at the head of the queue.
        refine .traffic _ _ rfl ⟨rfl, rfl, rfl, fun c hc => Or.inl hc, fun m hm => Or.inl ?_,
          fun m hm => Or.inl hm⟩
        rcases hm with hm | hm | hm
        · exact Or.inl (by rw [hinbound]; exact List.mem_cons_of_mem _ hm)
        · rw [WriterPc.writing.injEq] at hm
          exact Or.inl (by rw [hinbound, hm]; exact List.mem_cons_self)
        · exact Or.inr (Or.inr hm)
      · exact absurd h (by simp)
  | writerWrote =>
      simp only [step] at h
      split at h
      · rename_i message hwriter
        rw [← Option.some.inj h]
        refine .traffic _ _ rfl ⟨rfl, rfl, rfl, fun c hc => Or.inl hc, fun m hm => Or.inl ?_,
          fun m hm => Or.inl hm⟩
        rcases hm with hm | hm | hm
        · exact Or.inl hm
        · exact absurd hm (by simp)
        · rcases List.mem_cons.mp hm with hm | hm
          · rw [hm]
            exact Or.inr (Or.inl hwriter)
          · exact Or.inr (Or.inr hm)
      · exact absurd h (by simp)
  | writerFailed delivered =>
      simp only [step] at h
      split at h
      · rename_i message hwriter
        rw [← Option.some.inj h]
        refine .traffic _ _ rfl ⟨rfl, rfl, rfl, fun c hc => Or.inl hc, fun m hm => Or.inl ?_,
          fun m hm => Or.inl hm⟩
        rcases hm with hm | hm | hm
        · exact absurd hm (by simp)
        · exact absurd hm (by simp)
        · -- A write that fails may still have delivered the message.
          cases delivered with
          | false => exact Or.inr (Or.inr hm)
          | true =>
              rcases List.mem_cons.mp hm with hm | hm
              · rw [hm]
                exact Or.inr (Or.inl hwriter)
              · exact Or.inr (Or.inr hm)
      · exact absurd h (by simp)
  -- Nothing is queued or written here, so no message is lost.
  | writerEnd =>
      simp only [step, Option.ite_none_right_eq_some, Option.some.injEq] at h
      rw [← h.2]
      refine .traffic _ _ rfl ⟨rfl, rfl, rfl, fun c hc => Or.inl hc, fun m hm => Or.inl ?_,
        fun m hm => Or.inl hm⟩
      rcases hm with hm | hm | hm
      · exact Or.inl hm
      · exact absurd hm (by simp)
      · exact Or.inr (Or.inr hm)
  | emit caller payload =>
      simp only [step, Option.ite_none_right_eq_some, Option.some.injEq] at h
      rw [← h.2]
      refine .traffic _ _ rfl ⟨rfl, rfl, rfl, fun c hc => Or.inl hc, fun m hm => Or.inl hm,
        fun m hm => ?_⟩
      rcases List.mem_append.mp hm with hm | hm
      · exact Or.inl hm
      · rw [List.mem_singleton.mp hm]
        -- A marked message answers a request the server has read.
        exact Or.inr (mayEmit_marked t caller payload h.1.2)
  | exit =>
      simp only [step, Option.ite_none_right_eq_some, Option.some.injEq] at h
      rw [← h.2]
      exact .traffic _ _ rfl ⟨rfl, rfl, rfl, fun c hc => Or.inl hc, fun m hm => Or.inl hm,
        fun m hm => Or.inl hm⟩
  | read =>
      simp only [step] at h
      split at h
      · rename_i caller payload rest hreading hstdout
        rw [← Option.some.inj h]
        exact .broadcast caller payload rest hreading hstdout
      · exact absurd h (by simp)
  | readEnd =>
      simp only [step, Option.ite_none_right_eq_some, Option.some.injEq] at h
      rw [← h.2]
      exact .ended _ (Or.inl rfl) h.1.1
  | readError =>
      simp only [step, Option.ite_none_right_eq_some, Option.some.injEq] at h
      rw [← h.2]
      exact .ended _ (Or.inr rfl) h.1

/-! ### Handles and receivers -/

@[simp] theorem setPc_calls (t : Transport) (c : CallId) (request : Json) (pc : CallPc) :
    (t.setPc c request pc).calls = t.calls.set c ⟨request, pc⟩ := rfl

@[simp] theorem setPc_outbound (t : Transport) (c : CallId) (request : Json) (pc : CallPc) :
    (t.setPc c request pc).outbound = t.outbound := rfl

@[simp] theorem setPc_handles (t : Transport) (c : CallId) (request : Json) (pc : CallPc) :
    (t.setPc c request pc).handles = t.handles := rfl

@[simp] theorem setPc_reading (t : Transport) (c : CallId) (request : Json) (pc : CallPc) :
    (t.setPc c request pc).reading = t.reading := rfl

@[simp] theorem setPc_stdout (t : Transport) (c : CallId) (request : Json) (pc : CallPc) :
    (t.setPc c request pc).stdout = t.stdout := rfl

/-- A call begins subscribed, or fails for want of an id. -/
theorem beginCall_cases (t : Transport) (c : CallId) (request : Json) :
    ∃ pc, t.beginCall c request = t.setPc c request pc ∧
      (pc = .sending t.outbound.subscribe ∨
        pc = .returned (.error "request message must include id")) := by
  unfold beginCall
  cases request.get "id" with
  | none => exact ⟨_, rfl, Or.inr rfl⟩
  | some id => exact ⟨_, rfl, Or.inl rfl⟩

/-- A call that has not returned holds a handle, and has read no more than was
    sent. -/
structure Owned (t : Transport) : Prop where
  handle : ∀ c call rx, t.calls.get? c = some call → call.pc.receiver = some rx →
    .call c ∈ t.handles
  receiver : ∀ c call rx, t.calls.get? c = some call → call.pc.receiver = some rx →
    rx.next ≤ t.outbound.sent.length

theorem owned_spawn : Owned spawn where
  handle := fun c call rx hcall => by simp [spawn] at hcall
  receiver := fun c call rx hcall => by simp [spawn] at hcall

/-- The receiver of a call never finds the channel closed. -/
theorem senders_ne_zero (t : Transport) (c : CallId) (call : Call) (rx : Receiver) (h : Owned t)
    (hcall : t.calls.get? c = some call) (hrx : call.pc.receiver = some rx) :
    t.senders ≠ 0 := by
  have hlength := List.length_pos_of_mem (h.handle c call rx hcall hrx)
  unfold senders
  omega

/-- What one poll does: report a lag, return the message, or read it over. -/
theorem recvCall_cases (t t' : Transport) (c : CallId) (request : Json) (rx : Receiver)
    (hsenders : t.senders ≠ 0) (h : t.recvCall c request rx = some t') :
    ∃ pc, t' = t.setPc c request pc ∧
      (t.outbound.Lags rx ∧ pc = .returned (.error recvError) ∨
        ¬t.outbound.Lags rx ∧ ∃ m rest, t.outbound.unread rx = m :: rest ∧
          (expects request m = true ∧ pc = .returned (.ok m) ∨
            expects request m = false ∧ pc = .receiving ⟨rx.next + 1⟩)) := by
  unfold recvCall at h
  by_cases hlags : t.outbound.Lags rx
  · rw [Channel.recv_lagged _ _ rx hlags] at h
    exact ⟨_, (Option.some.inj h).symm, Or.inl ⟨hlags, rfl⟩⟩
  · cases hunread : t.outbound.unread rx with
    | nil =>
        rw [Channel.recv_drained _ _ rx hlags hunread hsenders] at h
        exact absurd h (by simp)
    | cons m rest =>
        rw [Channel.recv_value _ _ rx m rest hlags hunread] at h
        cases hm : expects request m with
        | true =>
            simp only [hm, if_true, Option.some.injEq] at h
            exact ⟨_, h.symm, Or.inr ⟨hlags, m, rest, rfl, Or.inl ⟨hm, rfl⟩⟩⟩
        | false =>
            simp only [hm, Bool.false_eq_true, if_false, Option.some.injEq] at h
            exact ⟨_, h.symm, Or.inr ⟨hlags, m, rest, rfl, Or.inr ⟨hm, rfl⟩⟩⟩

/-- Moving one call keeps the invariant, if the call had a handle and its new
    receiver is no further than the channel. -/
theorem owned_setPc (t : Transport) (c : CallId) (request : Json) (pc : CallPc) (h : Owned t)
    (hhandle : .call c ∈ t.handles)
    (hrx : ∀ rx, pc.receiver = some rx → rx.next ≤ t.outbound.sent.length) :
    Owned (t.setPc c request pc) where
  handle := by
    intro d call rx hcall hpc
    rcases (Table.get?_set_eq_some _ _ _ _ _).mp hcall with ⟨hd, _⟩ | ⟨_, hold⟩
    · rw [hd]
      exact hhandle
    · exact h.handle d call rx hold hpc
  receiver := by
    intro d call rx hcall hpc
    rcases (Table.get?_set_eq_some _ _ _ _ _).mp hcall with ⟨_, hnew⟩ | ⟨_, hold⟩
    · rw [← hnew] at hpc
      exact hrx rx hpc
    · exact h.receiver d call rx hold hpc

theorem mayDrop_call (t : Transport) (c : CallId) (call : Call) (rx : Receiver)
    (hcall : t.calls.get? c = some call) (hrx : call.pc.receiver = some rx) :
    t.mayDrop (.call c) = false := by
  rcases call with ⟨request, pc⟩
  cases pc with
  | sending rx => simp only [mayDrop, hcall]
  | receiving rx => simp only [mayDrop, hcall]
  | returned result => exact absurd hrx (by simp [CallPc.receiver])

theorem owned_step (t t' : Transport) (a : TransportAction) (h : Owned t)
    (hstep : t.step a = some t') : Owned t' := by
  cases step_effect t t' a hstep with
  | traffic _ _ ha htraffic =>
      constructor
      · intro c call rx hcall hrx
        rw [htraffic.calls] at hcall
        rcases htraffic.handles _ (h.handle c call rx hcall hrx) with hmem | hdrop
        · exact hmem
        · rw [mayDrop_call t c call rx hcall hrx] at hdrop
          exact absurd hdrop Bool.false_ne_true
      · intro c call rx hcall hrx
        rw [htraffic.calls] at hcall
        rw [htraffic.outbound]
        exact h.receiver c call rx hcall hrx
  | begin c source request hfree =>
      rcases beginCall_cases { t with handles := .call c :: t.handles } c request with
        ⟨pc, hbegin, hpc⟩
      rw [hbegin]
      refine owned_setPc _ c request pc ⟨?_, h.receiver⟩ List.mem_cons_self ?_
      · exact fun d call rx hcall hrx => List.mem_cons_of_mem _ (h.handle d call rx hcall hrx)
      · intro rx hrx
        rcases hpc with hpc | hpc
        · rw [hpc, CallPc.receiver, Option.some.injEq] at hrx
          rw [← hrx]
          exact Nat.le_refl _
        · rw [hpc] at hrx
          exact absurd hrx (by simp [CallPc.receiver])
  | unqueued c request rx error hcall hwriter =>
      refine owned_setPc t c request _ h (h.handle c _ rx hcall rfl) ?_
      exact fun rx hrx => absurd hrx (by simp [CallPc.receiver])
  | queued c request rx hcall hwriter =>
      refine owned_setPc _ c request _ ⟨h.handle, h.receiver⟩ (h.handle c _ rx hcall rfl) ?_
      intro rx' hrx
      rw [CallPc.receiver, Option.some.injEq] at hrx
      rw [← hrx]
      exact h.receiver c _ rx hcall rfl
  | polled c request rx t' hcall hrecv =>
      -- The handle of the call is itself a sender, so the channel is not closed on it.
      have hsenders := senders_ne_zero t c _ rx h hcall rfl
      rcases recvCall_cases t t' c request rx hsenders hrecv with ⟨pc, ht', hcases⟩
      rw [ht']
      refine owned_setPc t c request pc h (h.handle c _ rx hcall rfl) ?_
      intro rx' hrx'
      rcases hcases with ⟨_, hpc⟩ | ⟨_, m, rest, hunread, ⟨_, hpc⟩ | ⟨_, hpc⟩⟩
      · rw [hpc] at hrx'
        exact absurd hrx' (by simp [CallPc.receiver])
      · rw [hpc] at hrx'
        exact absurd hrx' (by simp [CallPc.receiver])
      · rw [hpc, CallPc.receiver, Option.some.injEq] at hrx'
        rw [← hrx']
        exact Channel.next_lt_of_unread _ rx m rest hunread
  | broadcast caller payload rest hreading hstdout =>
      refine ⟨h.handle, fun c call rx hcall hrx => ?_⟩
      have hle := h.receiver c call rx hcall hrx
      simp only [Channel.send, List.length_append, List.length_singleton]
      omega
  | ended _ ha hreading => exact ⟨h.handle, h.receiver⟩

theorem owned_run (as : List TransportAction) (t t' : Transport) (h : Owned t)
    (hrun : run step t as = some t') : Owned t' :=
  run_invariant (fun s a s' hs hstep _ => owned_step s s' a hs hstep) as t t' hrun h
    (along_true as t)

/-! ### Responses come after their requests -/

/-- Once queued, a call stays so. -/
theorem queued_step (t t' : Transport) (a : TransportAction) (c : CallId) (h : Queued t c)
    (hown : Owned t) (hstep : t.step a = some t') : Queued t' c := by
  rcases h with ⟨request₀, pc₀, hget, hpc₀⟩
  -- A step that sets a call past its sending point keeps every queued call so.
  have hset : ∀ (s : Transport) (d : CallId) (request : Json) (pc : CallPc), s.calls = t.calls →
      (∀ rx, pc ≠ .sending rx) → Queued (s.setPc d request pc) c := by
    intro s d request pc hs hpc
    by_cases hd : c = d
    · refine ⟨request, pc, ?_, hpc⟩
      rw [setPc_calls, hd, Table.get?_set_self]
    · refine ⟨request₀, pc₀, ?_, hpc₀⟩
      rw [setPc_calls, Table.get?_set_ne _ _ _ _ hd, hs, hget]
  cases step_effect t t' a hstep with
  | traffic _ _ ha htraffic => exact ⟨request₀, pc₀, by rw [htraffic.calls, hget], hpc₀⟩
  | begin d source request hfree =>
      have hne : c ≠ d := fun hd => by rw [hd, hfree] at hget; exact absurd hget (by simp)
      rcases beginCall_cases { t with handles := .call d :: t.handles } d request with
        ⟨pc, hbegin, _⟩
      rw [hbegin]
      refine ⟨request₀, pc₀, ?_, hpc₀⟩
      rw [setPc_calls, Table.get?_set_ne _ _ _ _ hne, hget]
  | unqueued d request rx error hcall hwriter => exact hset t d request _ rfl (by simp)
  | queued d request rx hcall hwriter => exact hset _ d request _ rfl (by simp)
  | polled d request rx t' hcall hrecv =>
      have hsenders := senders_ne_zero t d _ rx hown hcall rfl
      rcases recvCall_cases t t' d request rx hsenders hrecv with ⟨pc, ht', hcases⟩
      rw [ht']
      refine hset t d request pc rfl ?_
      rcases hcases with ⟨_, hpc⟩ | ⟨_, m, rest, _, ⟨_, hpc⟩ | ⟨_, hpc⟩⟩ <;> simp [hpc]
  | broadcast caller payload rest hreading hstdout => exact ⟨request₀, pc₀, hget, hpc₀⟩
  | ended _ ha hreading => exact ⟨request₀, pc₀, hget, hpc₀⟩

/-- A marked message is on its way only after the call it belongs to queued its
    request, and a response has no method. -/
structure Caused (t : Transport) : Prop where
  transit : ∀ m c, t.InTransit m → m.caller = some c → Queued t c
  stdout : ∀ m ∈ t.stdout, ∀ c, m.caller = some c →
    Queued t c ∧ m.content.get "method" = none
  sent : ∀ m ∈ t.outbound.sent, ∀ c, m.caller = some c →
    Queued t c ∧ m.content.payload.get "method" = none

theorem caused_spawn : Caused spawn where
  transit := by
    intro m c hm
    rcases hm with hm | hm | hm <;> simp [spawn] at hm
  stdout := by simp [spawn]
  sent := by simp [spawn]

theorem caused_step (t t' : Transport) (a : TransportAction) (hown : Owned t) (h : Caused t)
    (hstep : t.step a = some t') : Caused t' := by
  have hqueued : ∀ c, Queued t c → Queued t' c := fun c hc => queued_step t t' a c hc hown hstep
  -- What was on its way before the step stays accounted for.
  have hkeep : (∀ m, t'.InTransit m → t.InTransit m) → t'.stdout = t.stdout →
      t'.outbound = t.outbound → Caused t' := by
    intro htransit hstdout houtbound
    refine ⟨fun m c hm hc => hqueued c (h.transit m c (htransit m hm) hc), ?_, ?_⟩
    · intro m hm c hc
      rw [hstdout] at hm
      exact ⟨hqueued c (h.stdout m hm c hc).1, (h.stdout m hm c hc).2⟩
    · intro m hm c hc
      rw [houtbound] at hm
      exact ⟨hqueued c (h.sent m hm c hc).1, (h.sent m hm c hc).2⟩
  cases step_effect t t' a hstep with
  | traffic _ _ ha htraffic =>
      constructor
      · intro m c hm hc
        rcases htraffic.transit m hm with hold | hnone
        · exact hqueued c (h.transit m c hold hc)
        · rw [hnone] at hc
          exact absurd hc (by simp)
      · intro m hm c hc
        rcases htraffic.stdout m hm with hold | hnone | ⟨hmethod, m', hm', hcaller⟩
        · exact ⟨hqueued c (h.stdout m hold c hc).1, (h.stdout m hold c hc).2⟩
        · rw [hnone] at hc
          exact absurd hc (by simp)
        · refine ⟨hqueued c (h.transit m' c (Or.inr (Or.inr hm')) ?_), hmethod⟩
          rw [hcaller, hc]
      · intro m hm c hc
        rw [htraffic.outbound] at hm
        exact ⟨hqueued c (h.sent m hm c hc).1, (h.sent m hm c hc).2⟩
  | begin d source request hfree =>
      rcases beginCall_cases { t with handles := .call d :: t.handles } d request with
        ⟨pc, hbegin, _⟩
      rw [hbegin] at hkeep ⊢
      exact hkeep (fun m hm => hm) rfl rfl
  | unqueued d request rx error hcall hwriter => exact hkeep (fun m hm => hm) rfl rfl
  | queued d request rx hcall hwriter =>
      have hd : Queued (setPc { t with inbound := t.inbound ++ [⟨some d, request⟩] } d request
          (.receiving rx)) d :=
        ⟨request, _, by rw [setPc_calls, Table.get?_set_self], by simp⟩
      refine ⟨fun m c hm hc => ?_,
        fun m hm c hc => ⟨hqueued c (h.stdout m hm c hc).1, (h.stdout m hm c hc).2⟩,
        fun m hm c hc => ⟨hqueued c (h.sent m hm c hc).1, (h.sent m hm c hc).2⟩⟩
      rcases hm with hm | hm | hm
      · rcases List.mem_append.mp hm with hm | hm
        · exact hqueued c (h.transit m c (Or.inl hm) hc)
        · rw [List.mem_singleton.mp hm, Option.some.injEq] at hc
          rw [← hc]
          exact hd
      · exact hqueued c (h.transit m c (Or.inr (Or.inl hm)) hc)
      · exact hqueued c (h.transit m c (Or.inr (Or.inr hm)) hc)
  | polled d request rx t' hcall hrecv =>
      have hsenders := senders_ne_zero t d _ rx hown hcall rfl
      rcases recvCall_cases t t' d request rx hsenders hrecv with ⟨pc, ht', _⟩
      rw [ht'] at hkeep ⊢
      exact hkeep (fun m hm => hm) rfl rfl
  | broadcast caller payload rest hreading hstdout =>
      refine ⟨fun m c hm hc => hqueued c (h.transit m c hm hc), fun m hm c hc => ?_,
        fun m hm c hc => ?_⟩
      · have hold : m ∈ t.stdout := by
          rw [hstdout]
          exact List.mem_cons_of_mem _ hm
        exact ⟨hqueued c (h.stdout m hold c hc).1, (h.stdout m hold c hc).2⟩
      · rcases List.mem_append.mp hm with hm | hm
        · exact ⟨hqueued c (h.sent m hm c hc).1, (h.sent m hm c hc).2⟩
        · have hread := h.stdout ⟨caller, payload⟩ (by rw [hstdout]; exact List.mem_cons_self) c
          rw [List.mem_singleton.mp hm] at hc ⊢
          exact ⟨hqueued c (hread hc).1, (hread hc).2⟩
  | ended _ ha hreading => exact hkeep (fun m hm => hm) rfl rfl

/-! ### What the polls of a call lead to -/

/-- The call has returned this, or its own polls return it from here. -/
def Settles (t : Transport) (c : CallId) (r : Except String (Tagged LspMessage)) : Prop :=
  ∃ n t', run step t (List.replicate n (.recv c)) = some t' ∧
    ∃ request, t'.calls.get? c = some ⟨request, .returned r⟩

/-- The result a search ends with. -/
def ending : Found (Tagged LspMessage) → Except String (Tagged LspMessage)
  | .value m => .ok m
  | .lagged => .error recvError

/-- Only a waiting call can poll. -/
theorem step_recv_eq_some (t t' : Transport) (c : CallId) (h : t.step (.recv c) = some t') :
    ∃ request rx, t.calls.get? c = some ⟨request, .receiving rx⟩ ∧
      t.recvCall c request rx = some t' := by
  simp only [step] at h
  split at h
  · exact ⟨_, _, ‹_›, h⟩
  · exact absurd h (by simp)

theorem step_recv (t : Transport) (c : CallId) (request : Json) (rx : Receiver)
    (hcall : t.calls.get? c = some ⟨request, .receiving rx⟩) :
    t.step (.recv c) = t.recvCall c request rx := by
  simp only [step, hcall]

/-- A call that is not waiting has settled only on what it has returned. -/
theorem settles_not_receiving (t : Transport) (c : CallId)
    (r : Except String (Tagged LspMessage))
    (hpc : ∀ request rx, t.calls.get? c ≠ some ⟨request, .receiving rx⟩) :
    Settles t c r ↔ ∃ request, t.calls.get? c = some ⟨request, .returned r⟩ := by
  constructor
  · rintro ⟨n, t', hrun, hreturned⟩
    cases n with
    | zero =>
        simp only [List.replicate_zero, run, Option.some.injEq] at hrun
        rw [hrun]
        exact hreturned
    | succ n =>
        rw [List.replicate_succ] at hrun
        rcases exists_of_run_cons _ _ t t' hrun with ⟨s, hstep, _⟩
        rcases step_recv_eq_some t s c hstep with ⟨request, rx, hcall, _⟩
        exact absurd hcall (hpc request rx)
  · exact fun h => ⟨0, t, rfl, h⟩

/-- A poll does not change what a call settles on. -/
theorem settles_recv (t t' : Transport) (c : CallId) (r : Except String (Tagged LspMessage))
    (hstep : t.step (.recv c) = some t') (h : Settles t' c r) : Settles t c r := by
  rcases h with ⟨n, s, hrun, hreturned⟩
  refine ⟨n + 1, s, ?_, hreturned⟩
  rw [List.replicate_succ, run_cons _ _ _ _ hstep, hrun]

/-- The result of a call is the end of its search, if that has one. The
    induction is on the number of polls. -/
theorem seek_of_settles (n : Nat) (t t' : Transport) (c : CallId) (request : Json)
    (rx : Receiver) (r : Except String (Tagged LspMessage)) (h : Owned t)
    (hcall : t.calls.get? c = some ⟨request, .receiving rx⟩)
    (hrun : run step t (List.replicate n (.recv c)) = some t')
    (hreturned : ∃ request', t'.calls.get? c = some ⟨request', .returned r⟩) :
    ∃ found, t.outbound.seek (expects request) rx = some found ∧ ending found = r := by
  induction n generalizing t rx with
  | zero =>
      simp only [List.replicate_zero, run, Option.some.injEq] at hrun
      rcases hreturned with ⟨request', hreturned⟩
      rw [← hrun, hcall] at hreturned
      exact absurd hreturned (by simp)
  | succ n ih =>
      rw [List.replicate_succ] at hrun
      rcases exists_of_run_cons _ _ t t' hrun with ⟨s, hstep, hrest⟩
      have hown := owned_step t s _ h hstep
      have hsenders := senders_ne_zero t c _ rx h hcall rfl
      rw [step_recv t c request rx hcall] at hstep
      rcases recvCall_cases t s c request rx hsenders hstep with ⟨pc, hs, hcases⟩
      have hget : s.calls.get? c = some ⟨request, pc⟩ := by
        rw [hs, setPc_calls, Table.get?_set_self]
      -- A call that has returned is not moved by the remaining polls.
      have hdone : ∀ r', pc = .returned r' → r' = r := by
        intro r' hpc
        rw [hpc] at hget
        have hsettled : Settles s c r := ⟨n, t', hrest, hreturned⟩
        rcases (settles_not_receiving s c r (by simp [hget])).mp hsettled with ⟨request', hr⟩
        rw [hget, Option.some.injEq, Call.mk.injEq, CallPc.returned.injEq] at hr
        exact hr.2
      rcases hcases with ⟨hlags, hpc⟩ | ⟨hlags, m, rest, hunread, ⟨hm, hpc⟩ | ⟨hm, hpc⟩⟩
      · exact ⟨.lagged, Channel.seek_lagged _ _ rx hlags, hdone _ hpc⟩
      · exact ⟨.value m, Channel.seek_found _ _ rx m rest hlags hunread hm, hdone _ hpc⟩
      · rw [hpc] at hget
        rw [Channel.seek_skip _ _ rx m rest hlags hunread hm]
        have hseek := ih s ⟨rx.next + 1⟩ hown hget hrest
        rw [hs, setPc_outbound] at hseek
        exact hseek

/-- A search that has an end is the result of the call. The induction is on the
    number of messages not read. -/
theorem settles_of_seek (n : Nat) (t : Transport) (c : CallId) (request : Json) (rx : Receiver)
    (found : Found (Tagged LspMessage)) (h : Owned t)
    (hcall : t.calls.get? c = some ⟨request, .receiving rx⟩)
    (hn : (t.outbound.unread rx).length ≤ n)
    (hseek : t.outbound.seek (expects request) rx = some found) :
    Settles t c (ending found) := by
  -- A poll that returns settles the call.
  have hone : ∀ r, t.recvCall c request rx = some (t.setPc c request (.returned r)) →
      Settles t c r := by
    intro r hrecv
    rw [← step_recv t c request rx hcall] at hrecv
    exact settles_recv t _ c r hrecv ⟨0, _, rfl, request, by
      rw [setPc_calls, Table.get?_set_self]⟩
  by_cases hlags : t.outbound.Lags rx
  · rw [Channel.seek_lagged _ _ rx hlags, Option.some.injEq] at hseek
    rw [← hseek]
    exact hone _ (by simp only [recvCall, Channel.recv_lagged _ _ rx hlags, ending])
  · cases hunread : t.outbound.unread rx with
    | nil =>
        have hnone : t.outbound.seek (expects request) rx = none := by
          rw [Channel.seek_eq_none_iff]
          exact ⟨hlags, by simp [hunread]⟩
        rw [hnone] at hseek
        exact absurd hseek (by simp)
    | cons m rest =>
        have hrecv := Channel.recv_value t.outbound t.senders rx m rest hlags hunread
        cases hm : expects request m with
        | true =>
            rw [Channel.seek_found _ _ rx m rest hlags hunread hm, Option.some.injEq] at hseek
            rw [← hseek]
            exact hone _ (by simp only [recvCall, hrecv, hm, if_true, ending])
        | false =>
            cases n with
            | zero => simp [hunread] at hn
            | succ n =>
                have hstep : t.step (.recv c) =
                    some (t.setPc c request (.receiving ⟨rx.next + 1⟩)) := by
                  rw [step_recv t c request rx hcall]
                  simp only [recvCall, hrecv, hm, Bool.false_eq_true, if_false]
                refine settles_recv t _ c _ hstep ?_
                refine settles_of_seek n _ c request ⟨rx.next + 1⟩ found
                  (owned_step t _ _ h hstep) (by rw [setPc_calls, Table.get?_set_self]) ?_ ?_
                · rw [setPc_outbound, Channel.unread_next _ rx m rest hunread]
                  rw [hunread, List.length_cons] at hn
                  omega
                · rw [setPc_outbound, ← Channel.seek_skip _ _ rx m rest hlags hunread hm]
                  exact hseek

/-- What the polls of a waiting call lead to is its search of the channel. -/
theorem settles_receiving (t : Transport) (c : CallId) (request : Json) (rx : Receiver)
    (r : Except String (Tagged LspMessage)) (h : Owned t)
    (hcall : t.calls.get? c = some ⟨request, .receiving rx⟩) :
    Settles t c r ↔
      ∃ found, t.outbound.seek (expects request) rx = some found ∧ ending found = r := by
  constructor
  · rintro ⟨n, t', hrun, hreturned⟩
    exact seek_of_settles n t t' c request rx r h hcall hrun hreturned
  · rintro ⟨found, hseek, hr⟩
    rw [← hr]
    exact settles_of_seek _ t c request rx found h hcall (Nat.le_refl _) hseek

/-- What a call settles on depends on its own state and on the channel. -/
theorem settles_congr (t t' : Transport) (c : CallId) (r : Except String (Tagged LspMessage))
    (h : Owned t) (h' : Owned t') (hcall : t'.calls.get? c = t.calls.get? c)
    (houtbound : t'.outbound = t.outbound) : Settles t' c r ↔ Settles t c r := by
  by_cases hrx : ∃ request rx, t.calls.get? c = some ⟨request, .receiving rx⟩
  · rcases hrx with ⟨request, rx, hget⟩
    rw [settles_receiving t c request rx r h hget,
      settles_receiving t' c request rx r h' (by rw [hcall, hget]), houtbound]
  · have hpc : ∀ request rx, t.calls.get? c ≠ some ⟨request, .receiving rx⟩ :=
      fun request rx hget => hrx ⟨request, rx, hget⟩
    rw [settles_not_receiving t c r hpc,
      settles_not_receiving t' c r (by rw [hcall]; exact hpc), hcall]

end Transport

end Lspee
