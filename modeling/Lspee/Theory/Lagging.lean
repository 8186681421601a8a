import Lspee.Theory.Queueing

/-!
# Calls behind a Burst of Messages

Whether a call returns the response the server has given.

A call subscribes before it queues its request, so the response comes after its
subscription and, as long as the call waits, is among what its receiver has yet
to read (`pending_step`). No message that is read over has the id of the
request. So a call whose response was broadcast ends with it, as soon as it is
polled often enough, unless its receiver lags (`settles_of_responded`).

A receiver lags when more than the channel's capacity of messages came between
two polls. The poll then is an error, and `call` returns it as it returns the end
of the channel. That is the only way in which a call fails while the server is
there, and the polls that do so are the condition (`calls_return_iff`). A burst of
notifications before the response makes one of them (`call_lost_in_burst`).

## Main definitions

* `Responded`: The reader has broadcast the response to the call.
* `CallsReturn`: What the calls that have returned have returned.
* `PollCond`: The condition on a poll.
* `Marked`: The request of the call, or a response to it, is on its way.
* `Bearing`: A message on its way belongs to the request of its call.
* `Pending`: The response has not been read over.

## Theorems

* `stdout_step`: What the server writes.
* `marked_step`, `bearing_step`, `pending_step`: One step.
* `silent_run`: A call that failed before its request was queued is never
  answered.
* `lagging_poll`, `excused_step`: What a poll does to the property.
* `settles_of_responded`: What the polls of an answered call lead to.
* `calls_return_iff`: The condition is exact.
* `call_lost_in_burst`: A run that breaks it.
-/

namespace Lspee

open Transition Broadcast

namespace Transport

/-- The reader has broadcast a message the server wrote in response to the
    request of the call. -/
def Responded (t : Transport) (c : CallId) : Prop := ∃ m ∈ t.outbound.sent, m.caller = some c

/-- A call that returned a message returned one with its id. One that failed has no
    id or found a channel closed, and was not answered. -/
structure CallsReturn (t : Transport) : Prop where
  bears : ∀ c request m, t.calls.get? c = some ⟨request, .returned (.ok m)⟩ →
    expects request m = true
  closed : ∀ c request error, t.calls.get? c = some ⟨request, .returned (.error error)⟩ →
    request.get "id" = none ∨ t.writer = .stopped ∨ t.reading = false
  unanswered : ∀ c request error, t.calls.get? c = some ⟨request, .returned (.error error)⟩ →
    ¬Responded t c

/-- A poll finds the receiver lagging only where a channel is closed, and only for
    a call that is not answered by the end of the run. -/
def PollCond (last : Transport) (t : Transport) : TransportAction → Prop
  | .recv c => ∀ request rx, t.calls.get? c = some ⟨request, .receiving rx⟩ →
      t.outbound.Lags rx → (t.writer = .stopped ∨ t.reading = false) ∧ ¬Responded last c
  | _ => True

/-! ### What is on its way -/

/-- What is on its way to the server was so before, or has no mark, or has just been
    queued by its call. -/
theorem transit_step (t t' : Transport) (a : TransportAction) (hstep : t.step a = some t')
    (m : Tagged Json) (hm : t'.InTransit m) : t.InTransit m ∨ m.caller = none ∨
      ∃ c rx, m.caller = some c ∧ t.calls.get? c = some ⟨m.content, .sending rx⟩ ∧
        t'.calls.get? c = some ⟨m.content, .receiving rx⟩ := by
  cases step_effect t t' a hstep with
  | traffic _ _ ha htraffic =>
      rcases htraffic.transit m hm with hold | hnone
      · exact Or.inl hold
      · exact Or.inr (Or.inl hnone)
  | begin d source request hfree =>
      rcases beginCall_cases { t with handles := .call d :: t.handles } d request with
        ⟨pc, hbegin, _⟩
      rw [hbegin] at hm
      exact Or.inl hm
  | unqueued d request rx error hcall hwriter => exact Or.inl hm
  | queued d request rx hcall hwriter =>
      rcases hm with hm | hm | hm
      · rcases List.mem_append.mp hm with hold | hnew
        · exact Or.inl (Or.inl hold)
        · rw [List.mem_singleton.mp hnew]
          exact Or.inr (Or.inr ⟨d, rx, rfl, hcall, Table.get?_set_self _ _ _⟩)
      · exact Or.inl (Or.inr (Or.inl hm))
      · exact Or.inl (Or.inr (Or.inr hm))
  | polled d request rx t' hcall hrecv =>
      rcases recvCall_advances t t' d request rx hrecv with ⟨pc', ht', _⟩
      rw [ht'] at hm
      exact Or.inl hm
  | broadcast caller payload rest hreading hstdout => exact Or.inl hm
  | ended _ ha hreading => exact Or.inl hm

/-- What the server has written was there before, or has no mark, or answers a
    message it has read, with the same mark and the same id. -/
theorem stdout_step (t t' : Transport) (a : TransportAction) (hstep : t.step a = some t')
    (m : Tagged Json) (hm : m ∈ t'.stdout) : m ∈ t.stdout ∨ m.caller = none ∨
      ∃ m' ∈ t.received, m'.caller = m.caller ∧ m'.content.get "id" = m.content.get "id" := by
  cases a with
  | emit caller payload =>
      simp only [step, Option.ite_none_right_eq_some, Option.some.injEq] at hstep
      rw [← hstep.2] at hm
      rcases List.mem_append.mp hm with hold | hnew
      · exact Or.inl hold
      · right
        rw [List.mem_singleton.mp hnew]
        -- A marked message has the id of a request the server has read.
        have hmay := hstep.1.2
        cases caller with
        | none => exact Or.inl rfl
        | some c =>
            simp only [mayEmit, Bool.and_eq_true, List.any_eq_true, beq_iff_eq] at hmay
            rcases hmay.2 with ⟨m', hm', hcaller, hid⟩
            exact Or.inr ⟨m', hm', hcaller, hid⟩
  | begin c source request =>
      simp only [step, Option.ite_none_right_eq_some, Option.some.injEq] at hstep
      rcases beginCall_cases { t with handles := .call c :: t.handles } c request with
        ⟨pc, hbegin, _⟩
      rw [← hstep.2, hbegin] at hm
      exact Or.inl hm
  | send c =>
      cases step_effect t t' _ hstep with
      | traffic _ _ ha _ => exact absurd ha (by simp [isTraffic])
      | unqueued _ _ _ _ _ _ => exact Or.inl hm
      | queued _ _ _ _ _ => exact Or.inl hm
      | ended _ ha _ => exact absurd ha (by simp)
  | recv c =>
      rcases step_recv_eq_some t t' c hstep with ⟨request, rx, _, hrecv⟩
      rcases recvCall_advances t t' c request rx hrecv with ⟨pc', ht', _⟩
      rw [ht'] at hm
      exact Or.inl hm
  | read =>
      simp only [step] at hstep
      split at hstep
      · rename_i caller payload rest _ hstdout
        rw [← Option.some.inj hstep] at hm
        left
        rw [hstdout]
        exact List.mem_cons_of_mem _ hm
      · exact absurd hstep (by simp)
  | forward owner message =>
      simp only [step, Option.ite_none_right_eq_some] at hstep
      cases hsend : t.sendInbound ⟨none, message⟩ with
      | none => simp only [hsend, reduceCtorEq, and_false] at hstep
      | some result =>
          rcases sendInbound_eq_some t _ result hsend with ⟨_, hresult⟩ | ⟨_, hresult⟩ <;>
            · simp only [hsend, hresult, Option.some.injEq] at hstep
              rw [← hstep.2] at hm
              exact Or.inl hm
  | writerTake | writerWrote | writerFailed delivered =>
      simp only [step] at hstep
      split at hstep
      · rw [← Option.some.inj hstep] at hm
        exact Or.inl hm
      · exact absurd hstep (by simp)
  | clone _ _ | drop _ | writerEnd | exit | readEnd | readError =>
      simp only [step, Option.ite_none_right_eq_some, Option.some.injEq] at hstep
      rw [← hstep.2] at hm
      exact Or.inl hm

/-- What was broadcast was so before, or has just been read. -/
theorem broadcast_step (t t' : Transport) (a : TransportAction) (hstep : t.step a = some t')
    (m : Tagged LspMessage) (hm : m ∈ t'.outbound.sent) : m ∈ t.outbound.sent ∨
      ∃ m' ∈ t.stdout, m'.caller = m.caller ∧ LspMessage.fromJson m'.content = m.content := by
  cases step_effect t t' a hstep with
  | traffic _ _ ha htraffic =>
      rw [htraffic.outbound] at hm
      exact Or.inl hm
  | begin d source request hfree =>
      rcases beginCall_cases { t with handles := .call d :: t.handles } d request with
        ⟨pc, hbegin, _⟩
      rw [hbegin] at hm
      exact Or.inl hm
  | unqueued d request rx error hcall hwriter => exact Or.inl hm
  | queued d request rx hcall hwriter => exact Or.inl hm
  | polled d request rx t' hcall hrecv =>
      rcases recvCall_advances t t' d request rx hrecv with ⟨pc', ht', _⟩
      rw [ht'] at hm
      exact Or.inl hm
  | broadcast caller payload rest hreading hstdout =>
      rcases List.mem_append.mp hm with hold | hnew
      · exact Or.inl hold
      · rw [List.mem_singleton.mp hnew]
        refine Or.inr ⟨⟨caller, payload⟩, ?_, rfl, rfl⟩
        rw [hstdout]
        exact List.mem_cons_self
  | ended _ ha hreading => exact Or.inl hm

/-- A message marked with the call is on its way to the server, or was read or
    answered by it. -/
def Marked (t : Transport) (c : CallId) : Prop :=
  (∃ m, t.InTransit m ∧ m.caller = some c) ∨ (∃ m ∈ t.stdout, m.caller = some c) ∨ Responded t c

/-- Only a call that queues its request puts a mark into the world. -/
theorem marked_step (t t' : Transport) (a : TransportAction) (hstep : t.step a = some t')
    (c : CallId) (h : Marked t' c) :
    Marked t c ∨ ∃ request rx, t.calls.get? c = some ⟨request, .sending rx⟩ ∧
      t'.calls.get? c = some ⟨request, .receiving rx⟩ := by
  rcases h with ⟨m, hm, hc⟩ | ⟨m, hm, hc⟩ | ⟨m, hm, hc⟩
  · rcases transit_step t t' a hstep m hm with hold | hnone | ⟨d, rx, hd, hsending, hreceiving⟩
    · exact Or.inl (Or.inl ⟨m, hold, hc⟩)
    · rw [hnone] at hc
      exact absurd hc (by simp)
    · rw [hc, Option.some.injEq] at hd
      rw [← hd] at hsending hreceiving
      exact Or.inr ⟨_, rx, hsending, hreceiving⟩
  · rcases stdout_step t t' a hstep m hm with hold | hnone | ⟨m', hm', hcaller, _⟩
    · exact Or.inl (Or.inr (Or.inl ⟨m, hold, hc⟩))
    · rw [hnone] at hc
      exact absurd hc (by simp)
    · exact Or.inl (Or.inl ⟨m', Or.inr (Or.inr hm'), hcaller.trans hc⟩)
  · rcases broadcast_step t t' a hstep m hm with hold | ⟨m', hm', hcaller, _⟩
    · exact Or.inl (Or.inr (Or.inr ⟨m, hold, hc⟩))
    · exact Or.inl (Or.inr (Or.inl ⟨m', hm', hcaller.trans hc⟩))

/-- What is marked with a call was queued by it. -/
theorem queued_of_marked (t : Transport) (c : CallId) (hcaused : Caused t) (h : Marked t c) :
    Queued t c := by
  rcases h with ⟨m, hm, hc⟩ | ⟨m, hm, hc⟩ | ⟨m, hm, hc⟩
  · exact hcaused.transit m c hm hc
  · exact (hcaused.stdout m hm c hc).1
  · exact (hcaused.sent m hm c hc).1

theorem not_marked_of_sending (t : Transport) (c : CallId) (request : Json) (rx : Receiver)
    (hcaused : Caused t) (hcall : t.calls.get? c = some ⟨request, .sending rx⟩) :
    ¬Marked t c := by
  intro h
  rcases queued_of_marked t c hcaused h with ⟨request', pc, hget, hpc⟩
  rw [hcall, Option.some.injEq, Call.mk.injEq] at hget
  exact hpc rx hget.2.symm

theorem not_marked_of_free (t : Transport) (c : CallId) (hcaused : Caused t)
    (hfree : t.calls.get? c = none) : ¬Marked t c := by
  intro h
  rcases queued_of_marked t c hcaused h with ⟨request, pc, hget, _⟩
  rw [hfree] at hget
  exact absurd hget (by simp)

/-! ### What becomes of a call -/

/-- A call begins with an id, or has failed for want of one. -/
theorem begun_cases (t : Transport) (c : CallId) (request request' : Json) (pc : CallPc)
    (h : (t.beginCall c request).calls.get? c = some ⟨request', pc⟩) :
    (request'.get "id" = none ∧ ∃ error, pc = .returned (.error error)) ∨
      request'.get "id" ≠ none ∧ ∃ rx, pc = .sending rx := by
  unfold beginCall at h
  cases hid : request.get "id" with
  | none =>
      simp only [hid, setPc_calls, Table.get?_set_self, Option.some.injEq, Call.mk.injEq] at h
      rw [← h.1]
      exact Or.inl ⟨hid, _, h.2.symm⟩
  | some id =>
      simp only [hid, setPc_calls, Table.get?_set_self, Option.some.injEq, Call.mk.injEq] at h
      rw [← h.1, hid]
      exact Or.inr ⟨by simp, _, h.2.symm⟩

/-- A call after a step was the same before, or has begun, or has gone on. -/
theorem call_cases (t t' : Transport) (a : TransportAction) (hstep : t.step a = some t')
    (c : CallId) (request : Json) (pc' : CallPc)
    (h : t'.calls.get? c = some ⟨request, pc'⟩) :
    t.calls.get? c = some ⟨request, pc'⟩ ∨
      (t.calls.get? c = none ∧
        ((request.get "id" = none ∧ ∃ error, pc' = .returned (.error error)) ∨
          request.get "id" ≠ none ∧ ∃ rx, pc' = .sending rx)) ∨
      ∃ pc, t.calls.get? c = some ⟨request, pc⟩ ∧ Advances t t' c request a pc pc' := by
  cases hcall : t.calls.get? c with
  | none =>
      by_cases hbegin : ∃ source request, a = .begin c source request
      · rcases hbegin with ⟨source, r, ha⟩
        rw [ha] at hstep
        simp only [step, Option.ite_none_right_eq_some, Option.some.injEq] at hstep
        rw [← hstep.2] at h
        exact Or.inr (Or.inl ⟨rfl, begun_cases _ c r request pc' h⟩)
      · have hnone := call_begun t t' a hstep c hcall (fun source r ha => hbegin ⟨source, r, ha⟩)
        rw [hnone] at h
        exact absurd h (by simp)
  | some call =>
      rcases call with ⟨r, pc⟩
      rcases call_step t t' a hstep c r pc hcall with ⟨_, hstay⟩ | ⟨pc'', hget, hadvances⟩
      · rw [h] at hstay
        exact Or.inl hstay.symm
      · rw [h, Option.some.injEq, Call.mk.injEq] at hget
        rw [← hget.1, ← hget.2] at hadvances
        exact Or.inr (Or.inr ⟨pc, by rw [hget.1], hadvances⟩)

/-- A result stays. -/
theorem returned_step (t t' : Transport) (a : TransportAction) (hstep : t.step a = some t')
    (c : CallId) (request : Json) (r : Except String (Tagged LspMessage))
    (hcall : t.calls.get? c = some ⟨request, .returned r⟩) :
    t'.calls.get? c = some ⟨request, .returned r⟩ := by
  rcases call_step t t' a hstep c request _ hcall with ⟨_, hstay⟩ | ⟨pc', _, hadvances⟩
  · exact hstay
  · cases hadvances

theorem returned_run (as : List TransportAction) (t t' : Transport)
    (hrun : run step t as = some t') (c : CallId) (request : Json)
    (r : Except String (Tagged LspMessage))
    (hcall : t.calls.get? c = some ⟨request, .returned r⟩) :
    t'.calls.get? c = some ⟨request, .returned r⟩ :=
  run_invariant (I := fun s => s.calls.get? c = some ⟨request, .returned r⟩)
    (fun s a s' hs hstep _ => returned_step s s' a hstep c request r hs) as t t' hrun hcall
    (along_true as t)

/-- A call that failed before its request was queued is never answered. -/
theorem silent_run (as : List TransportAction) (t t' : Transport)
    (hrun : run step t as = some t') (c : CallId) (request : Json)
    (r : Except String (Tagged LspMessage))
    (hcall : t.calls.get? c = some ⟨request, .returned r⟩) (hmarked : ¬Marked t c) :
    ¬Marked t' c := by
  refine (run_invariant
    (I := fun s => s.calls.get? c = some ⟨request, .returned r⟩ ∧ ¬Marked s c)
    (fun s a s' hs hstep _ => ⟨returned_step s s' a hstep c request r hs.1, fun h => ?_⟩)
    as t t' hrun ⟨hcall, hmarked⟩ (along_true as t)).2
  rcases marked_step s s' a hstep c h with hold | ⟨request', rx, hsending, _⟩
  · exact hs.2 hold
  · rw [hs.1, Option.some.injEq, Call.mk.injEq] at hsending
    exact absurd hsending.2 (by simp)

/-- What was broadcast stays so. -/
theorem responded_run (as : List TransportAction) (t t' : Transport)
    (hrun : run step t as = some t') (c : CallId) (h : Responded t c) : Responded t' c := by
  refine run_invariant (I := fun s => Responded s c) (fun s a s' hs hstep _ => ?_) as t t' hrun h
    (along_true as t)
  rcases hs with ⟨m, hm, hc⟩
  exact ⟨m, sent_step s s' a hstep m hm, hc⟩

/-- A channel that is closed stays closed. -/
theorem closed_step (t t' : Transport) (a : TransportAction) (hstep : t.step a = some t')
    (h : t.writer = .stopped ∨ t.reading = false) :
    t'.writer = .stopped ∨ t'.reading = false := by
  rcases h with hwriter | hreading
  · left
    cases step_flow t t' a hstep with
    | quiet _ hw _ => rw [hw, hwriter]
    | queued _ _ _ _ _ _ hw _ => rw [hw, hwriter]
    | forwarded _ _ _ _ hw _ => rw [hw, hwriter]
    | taken _ hw _ _ _ => rw [hwriter] at hw; exact absurd hw (by simp)
    | wrote _ hw _ _ _ => rw [hwriter] at hw; exact absurd hw (by simp)
    | failed _ _ hstopped _ => exact hstopped
    | ended _ _ _ _ hstopped _ => exact hstopped
  · right
    cases step_effect t t' a hstep with
    | traffic _ _ _ htraffic => rw [htraffic.reading, hreading]
    | begin d source request _ =>
        rcases beginCall_cases { t with handles := .call d :: t.handles } d request with
          ⟨pc, hbegin, _⟩
        rw [hbegin]
        exact hreading
    | unqueued _ _ _ _ _ _ => exact hreading
    | queued _ _ _ _ _ => exact hreading
    | polled d request rx _ _ hrecv =>
        rcases recvCall_advances t t' d request rx hrecv with ⟨pc', ht', _⟩
        rw [ht']
        exact hreading
    | broadcast _ _ _ hread _ => rw [hreading] at hread; exact absurd hread (by simp)
    | ended _ _ _ => rfl

/-! ### Where the response is -/

/-- A marked message is the request of its call, or bears its id. -/
structure Bearing (t : Transport) : Prop where
  transit : ∀ m c, t.InTransit m → m.caller = some c → ∃ pc, t.calls.get? c = some ⟨m.content, pc⟩
  stdout : ∀ m ∈ t.stdout, ∀ c, m.caller = some c →
    ∃ request pc, t.calls.get? c = some ⟨request, pc⟩ ∧ m.content.get "id" = request.get "id"
  sent : ∀ m ∈ t.outbound.sent, ∀ c, m.caller = some c →
    ∃ request pc, t.calls.get? c = some ⟨request, pc⟩ ∧ expects request m = true

theorem bearing_spawn : Bearing spawn where
  transit := by
    intro m c hm
    rcases hm with hm | hm | hm <;> simp [spawn] at hm
  stdout := by simp [spawn]
  sent := by simp [spawn]

/-- A call keeps its request. -/
theorem request_step (t t' : Transport) (a : TransportAction) (hstep : t.step a = some t')
    (c : CallId) (request : Json) (pc : CallPc) (hcall : t.calls.get? c = some ⟨request, pc⟩) :
    ∃ pc', t'.calls.get? c = some ⟨request, pc'⟩ := by
  rcases call_step t t' a hstep c request pc hcall with ⟨_, hstay⟩ | ⟨pc', hget, _⟩
  · exact ⟨pc, hstay⟩
  · exact ⟨pc', hget⟩

theorem bearing_step (t t' : Transport) (a : TransportAction) (hstep : t.step a = some t')
    (h : Bearing t) : Bearing t' where
  transit := by
    intro m c hm hc
    rcases transit_step t t' a hstep m hm with hold | hnone | ⟨d, rx, hd, _, hreceiving⟩
    · rcases h.transit m c hold hc with ⟨pc, hget⟩
      exact request_step t t' a hstep c _ pc hget
    · rw [hnone] at hc
      exact absurd hc (by simp)
    · rw [hc, Option.some.injEq] at hd
      exact ⟨_, by rw [hd]; exact hreceiving⟩
  stdout := by
    intro m hm c hc
    rcases stdout_step t t' a hstep m hm with hold | hnone | ⟨m', hm', hcaller, hid⟩
    · rcases h.stdout m hold c hc with ⟨request, pc, hget, hid⟩
      rcases request_step t t' a hstep c request pc hget with ⟨pc', hget'⟩
      exact ⟨request, pc', hget', hid⟩
    · rw [hnone] at hc
      exact absurd hc (by simp)
    · -- what the server has read is the request of the call
      rcases h.transit m' c (Or.inr (Or.inr hm')) (hcaller.trans hc) with ⟨pc, hget⟩
      rcases request_step t t' a hstep c _ pc hget with ⟨pc', hget'⟩
      exact ⟨m'.content, pc', hget', hid.symm⟩
  sent := by
    intro m hm c hc
    rcases broadcast_step t t' a hstep m hm with hold | ⟨m', hm', hcaller, hcontent⟩
    · rcases h.sent m hold c hc with ⟨request, pc, hget, hexpects⟩
      rcases request_step t t' a hstep c request pc hget with ⟨pc', hget'⟩
      exact ⟨request, pc', hget', hexpects⟩
    · rcases h.stdout m' hm' c (hcaller.trans hc) with ⟨request, pc, hget, hid⟩
      rcases request_step t t' a hstep c request pc hget with ⟨pc', hget'⟩
      refine ⟨request, pc', hget', ?_⟩
      rw [expects, ← hcontent, LspMessage.fromJson, hid]
      exact beq_self_eq_true _

/-- The response to a call that waits has not been read over. -/
def Pending (t : Transport) : Prop :=
  ∀ c request rx, t.calls.get? c = some ⟨request, .receiving rx⟩ →
    ∀ m ∈ t.outbound.sent, m.caller = some c → m ∈ t.outbound.unread rx

theorem pending_step (t t' : Transport) (a : TransportAction) (hstep : t.step a = some t')
    (hown : Owned t) (hcaused : Caused t) (hbearing : Bearing t) (h : Pending t) :
    Pending t' := by
  -- A call that is not moved, on a channel that is not either.
  have hsame : ∀ c request rx, t.calls.get? c = some ⟨request, .receiving rx⟩ →
      t'.outbound = t.outbound → ∀ m ∈ t'.outbound.sent, m.caller = some c →
      m ∈ t'.outbound.unread rx := by
    intro c request rx hcall houtbound m hm hc
    rw [houtbound] at hm ⊢
    exact h c request rx hcall m hm hc
  intro c request rx hget
  cases step_effect t t' a hstep with
  | traffic _ _ ha htraffic =>
      rw [htraffic.calls] at hget
      exact hsame c request rx hget htraffic.outbound
  | begin d source request' hfree =>
      rcases beginCall_cases { t with handles := .call d :: t.handles } d request' with
        ⟨pc, hbegin, hpc⟩
      rw [hbegin] at hget hsame ⊢
      rcases (Table.get?_set_eq_some _ _ _ _ _).mp hget with ⟨_, hnew⟩ | ⟨_, hold⟩
      · rw [Call.mk.injEq] at hnew
        rcases hpc with hpc | hpc <;> exact absurd (hpc.symm.trans hnew.2) (by simp)
      · exact hsame c request rx hold rfl
  | unqueued d request' rx' error hcall hwriter =>
      rcases (Table.get?_set_eq_some _ _ _ _ _).mp hget with ⟨_, hnew⟩ | ⟨_, hold⟩
      · exact absurd hnew (by simp)
      · exact hsame c request rx hold rfl
  | queued d request' rx' hcall hwriter =>
      rcases (Table.get?_set_eq_some _ _ _ _ _).mp hget with ⟨hd, _⟩ | ⟨_, hold⟩
      · -- nothing is marked with a call that has yet to queue its request
        intro m hm hc
        rw [← hd] at hcall
        have hnot := not_marked_of_sending t c request' rx' hcaused hcall
        exact absurd (Or.inr (Or.inr ⟨m, hm, hc⟩)) hnot
      · exact hsame c request rx hold rfl
  | polled d request' rx' _ hcall hrecv =>
      have hsenders := senders_ne_zero t d _ rx' hown hcall rfl
      rcases recvCall_cases t t' d request' rx' hsenders hrecv with ⟨pc, ht', hcases⟩
      rw [ht'] at hget hsame ⊢
      rcases (Table.get?_set_eq_some _ _ _ _ _).mp hget with ⟨hd, hnew⟩ | ⟨_, hold⟩
      · rw [Call.mk.injEq] at hnew
        rcases hcases with ⟨_, hpc⟩ | ⟨_, u, rest, hunread, ⟨_, hpc⟩ | ⟨hu, hpc⟩⟩
        · exact absurd (hpc.symm.trans hnew.2) (by simp)
        · exact absurd (hpc.symm.trans hnew.2) (by simp)
        · -- the message read over has another id
          intro m hm hc
          rw [hpc, CallPc.receiving.injEq] at hnew
          rw [← hd] at hcall
          have hunread' := h c request' rx' hcall m hm hc
          rcases hbearing.sent m hm c hc with ⟨r, p, hr, hexpects⟩
          rw [hcall, Option.some.injEq, Call.mk.injEq] at hr
          rw [hunread, List.mem_cons] at hunread'
          rcases hunread' with hu' | hrest
          · rw [hu', ← hr.1, hu] at hexpects
            exact absurd hexpects (by simp)
          · rw [← hnew.2, setPc_outbound, Channel.unread_next _ rx' u rest hunread]
            exact hrest
      · exact hsame c request rx hold rfl
  | broadcast caller payload rest hreading hstdout =>
      intro m hm hc
      have hle := hown.receiver c _ rx hget rfl
      rw [Channel.unread_send _ _ rx hle]
      rcases List.mem_append.mp hm with hold | hnew
      · exact List.mem_append_left _ (h c request rx hget m hold hc)
      · exact List.mem_append_right _ hnew
  | ended _ ha hreading => exact hsame c request rx hget rfl

/-- A call that has not returned has an id. -/
def Identified (t : Transport) : Prop :=
  ∀ c request pc, t.calls.get? c = some ⟨request, pc⟩ → pc.receiver ≠ none →
    request.get "id" ≠ none

theorem identified_step (t t' : Transport) (a : TransportAction) (hstep : t.step a = some t')
    (h : Identified t) : Identified t' := by
  intro c request pc' hget hpc
  rcases call_cases t t' a hstep c request pc' hget with
    hold | ⟨_, ⟨_, error, hfailed⟩ | ⟨hid, _⟩⟩ | ⟨pc, hold, hadvances⟩
  · exact h c request pc' hold hpc
  · rw [hfailed] at hpc
    exact absurd rfl hpc
  · exact hid
  · -- a call goes on only from where it has a receiver
    refine h c request pc hold ?_
    cases hadvances <;> simp [CallPc.receiver]

/-- What every run keeps. -/
structure Answering (t : Transport) : Prop where
  owned : Owned t
  caused : Caused t
  bearing : Bearing t
  pending : Pending t
  identified : Identified t

theorem answering_spawn : Answering spawn where
  owned := owned_spawn
  caused := caused_spawn
  bearing := bearing_spawn
  pending := fun c request rx hcall => by simp [spawn] at hcall
  identified := fun c request pc hcall => by simp [spawn] at hcall

theorem answering_step (t t' : Transport) (a : TransportAction) (hstep : t.step a = some t')
    (h : Answering t) : Answering t' where
  owned := owned_step t t' a h.owned hstep
  caused := caused_step t t' a h.owned h.caused hstep
  bearing := bearing_step t t' a hstep h.bearing
  pending := pending_step t t' a hstep h.owned h.caused h.bearing h.pending
  identified := identified_step t t' a hstep h.identified

/-! ### What a call that waits ends with -/

/-- Once its response is broadcast, the polls of a call lead to a message with its
    id, unless its receiver lags. -/
theorem settles_of_responded (t : Transport) (h : Answering t) (c : CallId) (request : Json)
    (rx : Receiver) (hcall : t.calls.get? c = some ⟨request, .receiving rx⟩)
    (hresponded : Responded t c) :
    (∃ m, Settles t c (.ok m) ∧ expects request m = true) ↔ ¬t.outbound.Lags rx := by
  constructor
  · rintro ⟨m, hsettles, _⟩ hlags
    rcases (settles_receiving t c request rx _ h.owned hcall).mp hsettles with
      ⟨found, hseek, hending⟩
    rw [Channel.seek_lagged _ _ rx hlags, Option.some.injEq] at hseek
    rw [← hseek] at hending
    exact absurd hending (by simp [ending])
  · intro hlags
    rcases hresponded with ⟨m, hm, hc⟩
    have hunread := h.pending c request rx hcall m hm hc
    rcases h.bearing.sent m hm c hc with ⟨r, pc, hr, hexpects⟩
    rw [hcall, Option.some.injEq, Call.mk.injEq] at hr
    rw [← hr.1] at hexpects
    -- The search finds the response, or a message with the same id before it.
    have hfind : ((t.outbound.unread rx).find? (expects request)).isSome = true :=
      List.find?_isSome.mpr ⟨m, hunread, hexpects⟩
    rcases Option.isSome_iff_exists.mp hfind with ⟨v, hv⟩
    refine ⟨v, ?_, List.find?_some hv⟩
    rw [settles_receiving t c request rx _ h.owned hcall]
    refine ⟨.value v, ?_, rfl⟩
    rw [Channel.seek_of_not_lags _ _ rx hlags, hv, Option.map_some]

/-- A poll that finds the receiver lagging fails. -/
theorem lagging_poll (t t' : Transport) (c : CallId) (request : Json) (rx : Receiver)
    (hcall : t.calls.get? c = some ⟨request, .receiving rx⟩) (hlags : t.outbound.Lags rx)
    (hstep : t.step (.recv c) = some t') :
    t' = t.setPc c request (.returned (.error recvError)) := by
  rw [step_recv t c request rx hcall, recvCall, Channel.recv_lagged _ _ rx hlags,
    Option.some.injEq] at hstep
  exact hstep.symm

/-! ### The condition -/

/-- What a run from here on needs of the failures so far. -/
def Excused (last t : Transport) : Prop :=
  ∀ c request error, t.calls.get? c = some ⟨request, .returned (.error error)⟩ →
    (request.get "id" = none ∨ t.writer = .stopped ∨ t.reading = false) ∧ ¬Responded last c

theorem excused_step (t t' last : Transport) (a : TransportAction) (as : List TransportAction)
    (hstep : t.step a = some t') (hrun : run step t' as = some last) (h : Answering t)
    (hexcused : Excused last t) (hcond : PollCond last t a) : Excused last t' := by
  have hsilent : ∀ c request r, t'.calls.get? c = some ⟨request, .returned r⟩ → ¬Marked t c →
      ¬Responded last c := by
    intro c request r hget hmarked hresponded
    have hmarked' : ¬Marked t' c := fun hm => by
      rcases marked_step t t' a hstep c hm with hold | ⟨_, _, _, hreceiving⟩
      · exact hmarked hold
      · rw [hget] at hreceiving
        exact absurd hreceiving (by simp)
    exact silent_run as t' last hrun c request r hget hmarked' (Or.inr (Or.inr hresponded))
  intro c request error hget
  rcases call_cases t t' a hstep c request _ hget with
    hold | ⟨hfree, ⟨hid, _⟩ | ⟨_, rx, hsending⟩⟩ | ⟨pc, hold, hadvances⟩
  · rcases hexcused c request error hold with ⟨hclosed, hresponded⟩
    refine ⟨?_, hresponded⟩
    rcases hclosed with hid | hclosed
    · exact Or.inl hid
    · exact Or.inr (closed_step t t' a hstep hclosed)
  · exact ⟨Or.inl hid, hsilent c request _ hget (not_marked_of_free t c h.caused hfree)⟩
  · exact absurd hsending (by simp)
  · generalize hpc' : CallPc.returned (.error error) = pc' at hadvances
    cases hadvances with
    | unqueued rx hwriter hinbound =>
        refine ⟨Or.inr (closed_step t t' _ hstep (Or.inl hwriter)), ?_⟩
        exact hsilent c request _ hget (not_marked_of_sending t c request rx h.caused hold)
    | failed rx hinbound =>
        -- The channel is not closed on a receiver, so the poll failed for a lag.
        have hsenders := senders_ne_zero t c _ rx h.owned hold rfl
        rw [step_recv t c request rx hold] at hstep
        rcases recvCall_cases t t' c request rx hsenders hstep with ⟨p, ht', hcases⟩
        have hlags : t.outbound.Lags rx := by
          rw [ht', setPc_calls, Table.get?_set_self, Option.some.injEq, Call.mk.injEq] at hget
          rcases hcases with ⟨hlags, _⟩ | ⟨_, _, _, _, ⟨_, hp⟩ | ⟨_, hp⟩⟩
          · exact hlags
          · exact absurd (hp.symm.trans hget.2) (by simp)
          · exact absurd (hp.symm.trans hget.2) (by simp)
        rcases hcond request rx hold hlags with ⟨hclosed, hresponded⟩
        refine ⟨Or.inr ?_, hresponded⟩
        rw [ht']
        exact hclosed
    | queued _ _ => exact absurd hpc' (by simp)
    | polled _ _ _ => exact absurd hpc' (by simp)
    | answered _ _ _ _ _ => exact absurd hpc' (by simp)

/-- A call returns only messages with its id. -/
def Fitting (t : Transport) : Prop :=
  ∀ c request m, t.calls.get? c = some ⟨request, .returned (.ok m)⟩ → expects request m = true

theorem fitting_step (t t' : Transport) (a : TransportAction) (hstep : t.step a = some t')
    (h : Fitting t) : Fitting t' := by
  intro c request m hget
  rcases call_cases t t' a hstep c request _ hget with
    hold | ⟨_, ⟨_, _, hpc⟩ | ⟨_, _, hpc⟩⟩ | ⟨pc, _, hadvances⟩
  · exact h c request m hold
  · exact absurd hpc (by simp)
  · exact absurd hpc (by simp)
  · cases hadvances with
    | answered _ _ _ hexpects _ => exact hexpects

/-- The condition suffices: by induction on the run, no failure needs an excuse it
    does not have. -/
theorem calls_return_of_along (as : List TransportAction) (t last : Transport)
    (hrun : run step t as = some last) (h : Answering t) (hfitting : Fitting t)
    (hexcused : Excused last t) (hcond : Along step (PollCond last) t as) :
    Always step CallsReturn t as := by
  have hhere : ∀ (bs : List TransportAction) (s : Transport), run step s bs = some last →
      Fitting s → Excused last s → CallsReturn s := by
    intro bs s hs hfit hexc
    refine ⟨hfit, fun c request error hget => (hexc c request error hget).1,
      fun c request error hget hresponded => (hexc c request error hget).2 ?_⟩
    exact responded_run bs s last hs c hresponded
  induction as generalizing t with
  | nil => exact hhere [] t hrun hfitting hexcused
  | cons a as ih =>
      refine ⟨hhere (a :: as) t hrun hfitting hexcused, fun t' hstep => ?_⟩
      rcases hcond t' hstep with ⟨hone, hrest⟩
      have hrun' : run step t' as = some last := by
        rw [← hrun, run_cons a as t t' hstep]
      exact ih t' hrun' (answering_step t t' a hstep h) (fitting_step t t' a hstep hfitting)
        (excused_step t t' last a as hstep hrun' h hexcused hone) hrest

/-- The condition is needed: what a lagging poll returns is still there at the end
    of the run. -/
theorem along_of_calls_return (as : List TransportAction) (t last : Transport)
    (hrun : run step t as = some last) (h : Answering t)
    (halways : Always step CallsReturn t as) : Along step (PollCond last) t as := by
  induction as generalizing t with
  | nil => trivial
  | cons a as ih =>
      intro t' hstep
      have hrun' : run step t' as = some last := by
        rw [← hrun, run_cons a as t t' hstep]
      have halways' := halways.2 t' hstep
      refine ⟨?_, ih t' hrun' (answering_step t t' a hstep h) halways'⟩
      cases a with
      | recv c =>
          intro request rx hcall hlags
          have ht' := lagging_poll t t' c request rx hcall hlags hstep
          have hget : t'.calls.get? c = some ⟨request, .returned (.error recvError)⟩ := by
            rw [ht', setPc_calls, Table.get?_set_self]
          have hlast := returned_run as t' last hrun' c request _ hget
          refine ⟨?_, (always_last as t' last hrun' halways').unanswered c request _ hlast⟩
          have hid : request.get "id" ≠ none := h.identified c request _ hcall (by
            simp [CallPc.receiver])
          rcases (always_first as t' halways').closed c request _ hget with hnone | hclosed
          · exact absurd hnone hid
          · rw [ht'] at hclosed
            exact hclosed
      | _ => trivial

/-- In every state of a run the calls that have returned have the response or a
    closed channel to show for it, if and only if no poll of the run finds its
    receiver lagging, except where a channel is closed and the call is never
    answered. And a call that waits for a response already broadcast returns it by
    its own polls if and only if its receiver does not lag. -/
theorem calls_return_iff (as : List TransportAction) (t : Transport)
    (hrun : run step spawn as = some t) :
    (Always step CallsReturn spawn as ↔ Along step (PollCond t) spawn as) ∧
      ∀ c request rx, t.calls.get? c = some ⟨request, .receiving rx⟩ → Responded t c →
        ((∃ m, Settles t c (.ok m) ∧ expects request m = true) ↔ ¬t.outbound.Lags rx) := by
  refine ⟨⟨along_of_calls_return as spawn t hrun answering_spawn, ?_⟩, ?_⟩
  · exact calls_return_of_along as spawn t hrun answering_spawn
      (fun c request m hcall => by simp [spawn] at hcall)
      (fun c request error hcall => by simp [spawn] at hcall)
  · have h : Answering t := run_invariant
      (fun s a s' hs hstep _ => answering_step s s' a hstep hs) as spawn t hrun answering_spawn
      (along_true as spawn)
    exact settles_of_responded t h

/-! ### Two runs -/

def hoverRequest : Json := .obj [("id", .num 1), ("method", .str "textDocument/hover")]

def hoverResponse : Json := .obj [("id", .num 1), ("result", .null)]

def diagnostics : Json := .obj [("method", .str "textDocument/publishDiagnostics")]

/-- A request on its way from the call to the server. -/
def askHover : List TransportAction := [.begin 0 .session hoverRequest, .send 0, .writerTake,
  .writerWrote]

/-- The server answers, and the reader broadcasts the response. -/
def answerHover : List TransportAction := [.emit (some 0) hoverResponse, .read]

theorem hoverAnswered_isSome : (run step spawn (askHover ++ answerHover)).isSome = true := by
  decide

/-- A call that is answered at once ends with the response. -/
theorem calls_return_hoverAnswered :
    ∃ m, Settles ((run step spawn (askHover ++ answerHover)).get hoverAnswered_isSome) 0 (.ok m) ∧
      expects hoverRequest m = true := by
  have hall := (calls_return_iff (askHover ++ answerHover) _
    (Option.some_get hoverAnswered_isSome).symm).2 0 hoverRequest ⟨0⟩ rfl
    ⟨_, List.mem_cons_self, rfl⟩
  exact hall.mpr (by decide)

/-- The server writes a notification so many times, and the reader broadcasts
    each. -/
def burst : Nat → List TransportAction
  | 0 => []
  | n + 1 => .emit none diagnostics :: .read :: burst n

/-- A burst moves no call: it is broadcast, and that is all. -/
theorem burst_run (n : Nat) (t : Transport) (hopen : t.open_ = true) (hreading : t.reading = true)
    (hstdout : t.stdout = []) :
    run step t (burst n) = some { t with
      outbound := { t.outbound with
        sent := t.outbound.sent ++
          List.replicate n ⟨none, LspMessage.fromJson diagnostics⟩ } } := by
  induction n generalizing t with
  | zero => simp only [burst, run, List.replicate_zero, List.append_nil]
  | succ n ih =>
      have hemit : t.step (.emit none diagnostics) =
          some { t with stdout := [⟨none, diagnostics⟩] } := by
        simp only [step, hopen, mayEmit, and_self, if_true, hstdout, List.nil_append]
      have hread : step { t with stdout := [⟨none, diagnostics⟩] } .read = some { t with
          outbound := t.outbound.send ⟨none, LspMessage.fromJson diagnostics⟩ } := by
        simp only [step, hreading]
        rw [hstdout]
      have hrest := ih { t with
        outbound := t.outbound.send ⟨none, LspMessage.fromJson diagnostics⟩ } hopen hreading hstdout
      rw [burst, run_cons _ _ _ _ hemit, run_cons _ _ _ _ hread, hrest]
      simp only [Channel.send, List.append_assoc, List.replicate_succ, List.singleton_append]

theorem askHover_isSome : (run step spawn askHover).isSome = true := by
  decide

/-- A burst of as many notifications as the channel holds, then the response, and
    only then a poll: the call fails, though the server is there and has answered. -/
theorem call_lost_in_burst :
    ¬ ∀ (as : List TransportAction) (t : Transport), run step spawn as = some t →
      CallsReturn t := by
  intro hall
  let asked := (run step spawn askHover).get askHover_isSome
  have hasked : run step spawn askHover = some asked := (Option.some_get _).symm
  let flooded : Transport := { asked with
    outbound := ⟨channelCapacity,
      List.replicate 256 ⟨none, LspMessage.fromJson diagnostics⟩⟩ }
  have hflooded : run step asked (burst 256) = some flooded :=
    burst_run 256 asked rfl rfl rfl
  -- The response is the message too many.
  let answered : Transport := { flooded with
    outbound := flooded.outbound.send ⟨some 0, LspMessage.fromJson hoverResponse⟩ }
  have hanswered : run step flooded answerHover = some answered := rfl
  have hlags : answered.outbound.Lags ⟨0⟩ := by
    have hlength : answered.outbound.sent.length = 257 := by
      simp only [answered, flooded, Channel.send, List.length_append, List.length_replicate,
        List.length_singleton]
    unfold Channel.Lags
    rw [hlength]
    decide
  have hcall : answered.calls.get? 0 = some ⟨hoverRequest, .receiving ⟨0⟩⟩ := rfl
  have hpoll : answered.step (.recv 0) =
      some (answered.setPc 0 hoverRequest (.returned (.error recvError))) := by
    rw [step_recv answered 0 hoverRequest ⟨0⟩ hcall, recvCall,
      Channel.recv_lagged _ _ _ hlags]
  have hrun : run step spawn (askHover ++ (burst 256 ++ (answerHover ++ [.recv 0]))) =
      some (answered.setPc 0 hoverRequest (.returned (.error recvError))) := by
    rw [run_append _ _ _ _ hasked, run_append _ _ _ _ hflooded, run_append _ _ _ _ hanswered,
      run_cons _ _ _ _ hpoll]
    rfl
  have hclosed := (hall _ _ hrun).closed 0 hoverRequest recvError
    (Table.get?_set_self _ _ _)
  rcases hclosed with hid | hwriter | hreading
  · exact absurd hid (by decide)
  · exact absurd (show WriterPc.idle = .stopped from hwriter) (by decide)
  · exact absurd (show true = false from hreading) (by decide)

end Transport

end Lspee
