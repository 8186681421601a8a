import Lspee.Theory.Polling

/-!
# Calls and the End of the Server

Whether a call returns once the server's output has ended.

When the reader task ends, its sender of the broadcast channel goes with it,
and a receiver that has read everything would be told that the channel is
closed, if no sender were left. But the handle a call is made on is a sender,
and the call holds it until it returns. So the receiver of a call is never told
(`senders_ne_zero`), and a call that finds no message with its id waits for
ever: nothing broadcasts any more (`stuck_run`).

A call ends all the same if the message was broadcast before, or if its
receiver lags, which `call` reports as an error. That is the whole condition
(`callsEnd_iff_along`), and a request in flight when the server exits does not
meet it (`call_outlives_server`).

## Main definitions

* `Stuck`: A call waits on a channel nobody broadcasts on.
* `CallsEnd`: No call waits for ever once the reader has ended.
* `Served`: The message a call waits for is there, or its receiver lags.
* `ServedCond`: The condition on a step.

## Theorems

* `callsEnd_iff`: The property is about what has been broadcast.
* `stuck_step`, `stuck_run`: A stuck call stays stuck.
* `callsEnd_keep`, `callsEnd_need`: What the condition does at one step.
* `callsEnd_iff_along`: The condition is exact over whole runs.
* `call_outlives_server`: A run that breaks it.
-/

namespace Lspee

open Transition Broadcast

namespace Transport

/-- The reader task has ended, the call has read everything, and it waits. -/
def Stuck (t : Transport) (c : CallId) : Prop :=
  t.reading = false ∧ ∃ request rx, t.calls.get? c = some ⟨request, .receiving rx⟩ ∧
    t.outbound.unread rx = []

/-- Once the reader task has ended, the polls of a waiting call lead to a
    result, and no call waits on a channel it has read to the end. -/
structure CallsEnd (t : Transport) : Prop where
  ends : t.reading = false → ∀ c request rx, t.calls.get? c = some ⟨request, .receiving rx⟩ →
    ∃ r, Settles t c r
  moves : ∀ c, ¬Stuck t c

/-- The receiver has a message with the id of the request to read, or lags. -/
def Served (t : Transport) (request : Json) (rx : Receiver) : Prop :=
  t.outbound.Lags rx ∨ ∃ m ∈ t.outbound.unread rx, expects request m = true

instance (t : Transport) (request : Json) (rx : Receiver) : Decidable (Served t request rx) :=
  inferInstanceAs (Decidable (_ ∨ _))

/-- When the reader ends, every waiting call is served; and so is a call that
    queues its request after that. -/
def ServedCond (t : Transport) : TransportAction → Prop
  | .readEnd => ∀ c request rx, t.calls.get? c = some ⟨request, .receiving rx⟩ →
      Served t request rx
  | .readError => ∀ c request rx, t.calls.get? c = some ⟨request, .receiving rx⟩ →
      Served t request rx
  | .send c => t.reading = false → t.writer ≠ .stopped → ∀ request rx,
      t.calls.get? c = some ⟨request, .sending rx⟩ → Served t request rx
  | _ => True

theorem seek_eq_none_iff_not_served (t : Transport) (request : Json) (rx : Receiver) :
    t.outbound.seek (expects request) rx = none ↔ ¬Served t request rx := by
  rw [Channel.seek_eq_none_iff]
  unfold Served
  simp only [not_or, not_exists, not_and, Bool.not_eq_true]

/-- The polls of a call lead to a result when the call is served. -/
theorem settles_iff_served (t : Transport) (c : CallId) (request : Json) (rx : Receiver)
    (h : Owned t) (hcall : t.calls.get? c = some ⟨request, .receiving rx⟩) :
    (∃ r, Settles t c r) ↔ Served t request rx := by
  constructor
  · rintro ⟨r, hsettles⟩
    rcases (settles_receiving t c request rx r h hcall).mp hsettles with ⟨found, hseek, _⟩
    by_contra hserved
    rw [(seek_eq_none_iff_not_served t request rx).mpr hserved] at hseek
    exact absurd hseek (by simp)
  · intro hserved
    cases hseek : t.outbound.seek (expects request) rx with
    | none => exact absurd hserved ((seek_eq_none_iff_not_served t request rx).mp hseek)
    | some found =>
        exact ⟨_, (settles_receiving t c request rx _ h hcall).mpr ⟨found, hseek, rfl⟩⟩

/-- A stuck call is not served. -/
theorem not_served_of_drained (t : Transport) (request : Json) (rx : Receiver)
    (h : t.outbound.unread rx = []) : ¬Served t request rx := by
  rintro (hlags | ⟨m, hm, _⟩)
  · have hlength := Channel.unread_length t.outbound rx
    rw [h, List.length_nil] at hlength
    unfold Channel.Lags at hlags
    omega
  · rw [h] at hm
    exact absurd hm (List.not_mem_nil)

/-- Calls end when all that wait are served. -/
theorem callsEnd_iff (t : Transport) (h : Owned t) :
    CallsEnd t ↔ (t.reading = false → ∀ c request rx,
      t.calls.get? c = some ⟨request, .receiving rx⟩ → Served t request rx) := by
  constructor
  · intro hends hreading c request rx hcall
    exact (settles_iff_served t c request rx h hcall).mp (hends.ends hreading c request rx hcall)
  · intro hserved
    refine ⟨fun hreading c request rx hcall => ?_, ?_⟩
    · exact (settles_iff_served t c request rx h hcall).mpr (hserved hreading c request rx hcall)
    · rintro c ⟨hreading, request, rx, hcall, hdrained⟩
      exact not_served_of_drained t request rx hdrained (hserved hreading c request rx hcall)

/-! ### A stuck call stays stuck -/

theorem stuck_step (t t' : Transport) (a : TransportAction) (c : CallId) (hown : Owned t)
    (h : Stuck t c) (hstep : t.step a = some t') : Stuck t' c := by
  rcases h with ⟨hreading, request₀, rx₀, hget, hdrained⟩
  -- A step of another call leaves this one where it is.
  have hother : ∀ (s : Transport) (d : CallId) (request : Json) (pc : CallPc), c ≠ d →
      s.calls = t.calls → s.outbound = t.outbound → s.reading = t.reading →
      Stuck (s.setPc d request pc) c := by
    intro s d request pc hne hcalls houtbound hread
    refine ⟨by rw [setPc_reading, hread, hreading], request₀, rx₀, ?_, ?_⟩
    · rw [setPc_calls, Table.get?_set_ne _ _ _ _ hne, hcalls, hget]
    · rw [setPc_outbound, houtbound, hdrained]
  cases step_effect t t' a hstep with
  | traffic _ _ ha htraffic =>
      exact ⟨by rw [htraffic.reading, hreading], request₀, rx₀, by rw [htraffic.calls, hget],
        by rw [htraffic.outbound, hdrained]⟩
  | begin d source request hfree =>
      have hne : c ≠ d := fun hd => by rw [hd, hfree] at hget; exact absurd hget (by simp)
      rcases beginCall_cases { t with handles := .call d :: t.handles } d request with
        ⟨pc, hbegin, _⟩
      rw [hbegin]
      exact hother _ d request pc hne rfl rfl rfl
  | unqueued d request rx error hcall hwriter =>
      have hne : c ≠ d := fun hd => by rw [hd, hcall] at hget; exact absurd hget (by simp)
      exact hother t d request _ hne rfl rfl rfl
  | queued d request rx hcall hwriter =>
      have hne : c ≠ d := fun hd => by rw [hd, hcall] at hget; exact absurd hget (by simp)
      exact hother _ d request _ hne rfl rfl rfl
  | polled d request rx t' hcall hrecv =>
      have hsenders := senders_ne_zero t d _ rx hown hcall rfl
      rcases recvCall_cases t t' d request rx hsenders hrecv with ⟨pc, ht', hcases⟩
      have hne : c ≠ d := by
        intro hd
        rw [hd, hcall, Option.some.injEq, Call.mk.injEq, CallPc.receiving.injEq] at hget
        rcases hcases with ⟨hlags, _⟩ | ⟨_, m, rest, hunread, _⟩
        · rw [hget.2] at hlags
          exact not_served_of_drained t request rx₀ hdrained (Or.inl hlags)
        · rw [hget.2, hdrained] at hunread
          exact absurd hunread (by simp)
      rw [ht']
      exact hother t d request pc hne rfl rfl rfl
  | broadcast caller payload rest hread hstdout =>
      rw [hread] at hreading
      exact absurd hreading (by simp)
  | ended _ ha hread => exact ⟨rfl, request₀, rx₀, hget, hdrained⟩

/-- Whatever anybody does, a stuck call stays stuck. -/
theorem stuck_run (as : List TransportAction) (t t' : Transport) (c : CallId) (hown : Owned t)
    (h : Stuck t c) (hrun : run step t as = some t') : Stuck t' c := by
  have hboth := run_invariant (I := fun s => Owned s ∧ Stuck s c)
    (fun s a s' hs hstep _ => ⟨owned_step s s' a hs.1 hstep, stuck_step s s' a c hs.1 hs.2 hstep⟩)
    as t t' hrun ⟨hown, h⟩ (along_true as t)
  exact hboth.2

/-! ### What the condition does -/

/-- Polling keeps a call served, as long as it waits. -/
theorem served_next (t : Transport) (request : Json) (rx : Receiver) (m : Tagged LspMessage)
    (rest : List (Tagged LspMessage)) (h : Served t request rx) (hlags : ¬t.outbound.Lags rx)
    (hunread : t.outbound.unread rx = m :: rest) (hm : expects request m = false) :
    Served t request ⟨rx.next + 1⟩ := by
  rcases h with hlag | ⟨m', hmem, hexp⟩
  · exact absurd hlag hlags
  · rw [hunread, List.mem_cons] at hmem
    rcases hmem with heq | hmem
    · rw [heq, hm] at hexp
      exact absurd hexp Bool.false_ne_true
    · refine Or.inr ⟨m', ?_, hexp⟩
      rw [Channel.unread_next _ rx m rest hunread]
      exact hmem

theorem callsEnd_keep (t t' : Transport) (a : TransportAction) (hown : Owned t) (h : CallsEnd t)
    (hstep : t.step a = some t') (hcond : ServedCond t a) : CallsEnd t' := by
  rw [callsEnd_iff t' (owned_step t t' a hown hstep)]
  rw [callsEnd_iff t hown] at h
  -- A step that sets one call past its sending point leaves the others as they were.
  have hset : ∀ (s : Transport) (d : CallId) (request₀ : Json) (pc : CallPc),
      s.calls = t.calls → s.outbound = t.outbound → s.reading = t.reading →
      (∀ rx, t.reading = false → pc = .receiving rx → Served t request₀ rx) →
      (s.setPc d request₀ pc).reading = false → ∀ c request rx,
      (s.setPc d request₀ pc).calls.get? c = some ⟨request, .receiving rx⟩ →
      Served (s.setPc d request₀ pc) request rx := by
    intro s d request₀ pc hcalls houtbound hread hpc hreading c request rx hcall
    rw [setPc_reading, hread] at hreading
    unfold Served
    rw [setPc_outbound, houtbound]
    rcases (Table.get?_set_eq_some _ _ _ _ _).mp hcall with ⟨_, hnew⟩ | ⟨_, hold⟩
    · rw [Call.mk.injEq] at hnew
      rw [← hnew.1]
      exact hpc rx hreading hnew.2
    · rw [hcalls] at hold
      exact h hreading c request rx hold
  cases step_effect t t' a hstep with
  | traffic _ _ ha htraffic =>
      intro hreading c request rx hcall
      rw [htraffic.reading] at hreading
      rw [htraffic.calls] at hcall
      unfold Served
      rw [htraffic.outbound]
      exact h hreading c request rx hcall
  | begin d source request hfree =>
      rcases beginCall_cases { t with handles := .call d :: t.handles } d request with
        ⟨pc, hbegin, hpc⟩
      rw [hbegin]
      refine hset _ d request pc rfl rfl rfl (fun rx _ hrx => ?_)
      rcases hpc with hpc | hpc <;> exact absurd (hpc.symm.trans hrx) (by simp)
  | unqueued d request rx error hcall hwriter =>
      exact hset t d request _ rfl rfl rfl (fun rx _ hrx => absurd hrx (by simp))
  | queued d request rx hcall hwriter =>
      refine hset _ d request _ rfl rfl rfl (fun rx' hreading hrx => ?_)
      rw [CallPc.receiving.injEq] at hrx
      rw [← hrx]
      exact hcond hreading hwriter request rx hcall
  | polled d request rx t' hcall hrecv =>
      have hsenders := senders_ne_zero t d _ rx hown hcall rfl
      rcases recvCall_cases t t' d request rx hsenders hrecv with ⟨pc, ht', hcases⟩
      rw [ht']
      refine hset t d request pc rfl rfl rfl (fun rx' hreading hrx => ?_)
      rcases hcases with ⟨_, hpc⟩ | ⟨hlags, m, rest, hunread, ⟨_, hpc⟩ | ⟨hm, hpc⟩⟩
      · exact absurd (hpc.symm.trans hrx) (by simp)
      · exact absurd (hpc.symm.trans hrx) (by simp)
      · have hserved := h hreading d request rx hcall
        rw [hpc, CallPc.receiving.injEq] at hrx
        rw [← hrx]
        exact served_next t request rx m rest hserved hlags hunread hm
  | broadcast caller payload rest hread hstdout =>
      intro hreading
      rw [show t.reading = false from hreading] at hread
      exact absurd hread (by simp)
  | ended _ ha hread =>
      intro _ c request rx hcall
      rcases ha with ha | ha
      · rw [ha] at hcond
        exact hcond c request rx hcall
      · rw [ha] at hcond
        exact hcond c request rx hcall

theorem callsEnd_need (t t' : Transport) (a : TransportAction) (hown : Owned t)
    (hstep : t.step a = some t') (h : CallsEnd t') : ServedCond t a := by
  rw [callsEnd_iff t' (owned_step t t' a hown hstep)] at h
  cases step_effect t t' a hstep with
  | traffic _ _ ha htraffic =>
      cases a with
      | begin _ _ _ | send _ | recv _ | read | readEnd | readError =>
          exact absurd ha (by simp [isTraffic])
      | _ => trivial
  | begin d source request hfree => trivial
  | unqueued d request rx error hcall hwriter => exact fun _ hne => absurd hwriter hne
  | queued d request rx hcall hwriter =>
      intro hreading _ request' rx' hcall'
      rw [hcall, Option.some.injEq, Call.mk.injEq, CallPc.sending.injEq] at hcall'
      rw [← hcall'.1, ← hcall'.2]
      exact h hreading d request rx (by rw [setPc_calls, Table.get?_set_self])
  | polled d request rx t' hcall hrecv => trivial
  | broadcast caller payload rest hread hstdout => trivial
  | ended _ ha hread =>
      rcases ha with ha | ha <;>
        rw [ha] <;>
        exact fun c request rx hcall => h rfl c request rx hcall

/-- Calls end in every state of a run if and only if, whenever the reader ends,
    every waiting call is served, and whenever a request is queued after that,
    its call is. -/
theorem callsEnd_iff_along (as : List TransportAction) :
    Always step CallsEnd spawn as ↔ Along step ServedCond spawn as := by
  have hspawn : CallsEnd spawn := by
    rw [callsEnd_iff spawn owned_spawn]
    exact fun hreading => absurd hreading (by simp [spawn])
  refine always_iff_along (I := Owned) ?_ ?_ as spawn owned_spawn hspawn (along_true as spawn)
  · intro t a t' hown h hstep _ hcond
    exact ⟨owned_step t t' a hown hstep, callsEnd_keep t t' a hown h hstep hcond⟩
  · intro t a t' hown _ hstep _ h
    exact callsEnd_need t t' a hown hstep h

/-- A request has reached the server when the server exits. -/
def exitDuringCall : List TransportAction :=
  [.begin 0 .session (.obj [("id", .num 1), ("method", .str "textDocument/hover")]), .send 0,
    .writerTake, .writerWrote, .exit, .readEnd]

theorem exitDuringCall_isSome : (run step spawn exitDuringCall).isSome = true := by
  decide

/-- A call can outlive its server: nothing tells it that the reader is gone. -/
theorem call_outlives_server :
    ¬ ∀ (as : List TransportAction) (t : Transport), run step spawn as = some t →
      ∀ c, ¬Stuck t c := by
  intro hall
  have hfree := hall exitDuringCall ((run step spawn exitDuringCall).get exitDuringCall_isSome)
    (Option.some_get _).symm 0
  exact hfree ⟨rfl, _, ⟨0⟩, rfl, rfl⟩

end Transport

end Lspee
