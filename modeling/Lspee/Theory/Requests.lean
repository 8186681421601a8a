import Lspee.Theory.Identity

/-!
# The Life of a Request

A call of `call_by_lease_id` or `notify_by_lease_id` looks its lease up, looks
the session up, waits for the runtime, and touches the session. `Advances` lists
what it does, and each call does it alone: it stays as it is while others move
(`forward_step`). It hands its message to one runtime at most, which is logged
by the section that finds the session and by no other step (`routedTo_other`).

## Main definitions

* `ForwardPc.Advances`: How a call that forwards a message goes on.
* `routedTo`: The runtimes a call has forwarded its message to.

## Theorems

* `forward_section`: A section is one of these.
* `forward_step`: And so is a step that moves the call.
* `section_forwarded`, `routedTo_other`: Who forwards a message.
* `routed_step`: A call with the runtimes it has found.
* `calls_stay`: A call that has begun is there from then on.
* `routed_bound`: A message is forwarded to a runtime that is there.
-/

namespace Lspee

open Transition

/-- How a call that forwards a message goes on. -/
inductive ForwardPc.Advances (call : CallId) (id : String) (message : Json) :
    ForwardPc → Action → List Event → ForwardPc → Prop where
  | leased (key : SessionKey) : Advances call id message .lease (.sect call) [] (.session key)
  | unknown : Advances call id message .lease (.sect call) [] (.returned (.ok none))
  | missing (key : SessionKey) :
      Advances call id message (.session key) (.sect call) [] (.returned (.ok none))
  | rejected (key : SessionKey) (error : String) :
      Advances call id message (.session key) (.sect call) [] (.returned (.error error))
  | found (key : SessionKey) (runtime : RuntimeId) :
      Advances call id message (.session key) (.sect call)
        [.forwarded call id runtime message] (.awaiting key runtime)
  | answered (key : SessionKey) (runtime : RuntimeId) (response : Json) :
      Advances call id message (.awaiting key runtime) (.runtimeReturns call (.ok response)) []
        (.touch key response)
  | failed (key : SessionKey) (runtime : RuntimeId) (error : String) :
      Advances call id message (.awaiting key runtime) (.runtimeReturns call (.error error)) []
        (.returned (.error error))
  | touched (key : SessionKey) (response : Json) :
      Advances call id message (.touch key response) (.sect call) []
        (.returned (.ok (some response)))

theorem forward_section (call : CallId) (now : Instant) (r r' : SessionRegistry)
    (id : String) (message : Json) (pc pc' : ForwardPc) (events : List Event)
    (h : pc.section call id message now r = some (r', pc', events)) :
    ForwardPc.Advances call id message pc (.sect call) events pc' := by
  cases pc with
  | lease =>
      cases hkey : r.leaseKey id with
      | none =>
          simp only [ForwardPc.section, hkey, Option.some.injEq, Prod.mk.injEq] at h
          rw [← h.2.1, ← h.2.2]
          exact .unknown
      | some key =>
          simp only [ForwardPc.section, hkey, Option.some.injEq, Prod.mk.injEq] at h
          rw [← h.2.1, ← h.2.2]
          exact .leased key
  | session key =>
      cases hlookup : r.lookupRuntime key now with
      | missing =>
          simp only [ForwardPc.section, hlookup, Option.some.injEq, Prod.mk.injEq] at h
          rw [← h.2.1, ← h.2.2]
          exact .missing key
      | rejected error =>
          simp only [ForwardPc.section, hlookup, Option.some.injEq, Prod.mk.injEq] at h
          rw [← h.2.1, ← h.2.2]
          exact .rejected key error
      | found r₁ handle =>
          simp only [ForwardPc.section, hlookup, Option.some.injEq, Prod.mk.injEq] at h
          rw [← h.2.1, ← h.2.2]
          exact .found key handle.runtime
  | awaiting key runtime => exact absurd h (by simp [ForwardPc.section])
  | touch key response =>
      simp only [ForwardPc.section, Option.some.injEq, Prod.mk.injEq] at h
      rw [← h.2.1, ← h.2.2]
      exact .touched key response
  | returned result => exact absurd h (by simp [ForwardPc.section])

/-- A call that forwards a message stays as it is while others move, and goes on
    by its own steps. -/
theorem forward_step (w w' : World) (a : Action) (hstep : w.step a = some w') (call : CallId)
    (kind : ForwardKind) (id : String) (message : Json) (pc : ForwardPc)
    (hget : w.calls.get? call = some (.forward kind id message pc)) :
    a.mover ≠ some call ∧ w'.calls.get? call = some (.forward kind id message pc) ∨
      ∃ events pc', w'.calls.get? call = some (.forward kind id message pc') ∧
        w'.log = events ++ w.log ∧ ForwardPc.Advances call id message pc a events pc' := by
  by_cases hmover : a.mover = some call
  swap
  · exact Or.inl ⟨hmover, calls_step w w' a hstep call _ hget hmover⟩
  right
  cases a with
  | tick span => exact absurd hmover (by simp [Action.mover])
  | start c method => exact absurd hmover (by simp [Action.mover])
  | sect c =>
      rw [Action.mover, Option.some.injEq] at hmover
      rw [hmover] at hstep ⊢
      simp only [World.step, hget, Option.map_eq_some_iff, Prod.exists] at hstep
      rcases hstep with ⟨r', frame', events, hsec, hw'⟩
      simp only [Frame.section, Option.map_eq_some_iff, Prod.exists, Prod.mk.injEq] at hsec
      rcases hsec with ⟨r₁, pc', evs, hsec, _, hframe, hevents⟩
      rw [← hw', ← hframe, ← hevents]
      exact ⟨evs, pc', Table.get?_set_self _ _ _, rfl,
        forward_section call w.now w.reg r₁ id message pc pc' evs hsec⟩
  | spawnReturns c result =>
      rw [Action.mover, Option.some.injEq] at hmover
      simp only [World.step, hmover, hget, reduceCtorEq] at hstep
  | runtimeReturns c result =>
      rw [Action.mover, Option.some.injEq] at hmover
      rw [hmover] at hstep ⊢
      simp only [World.step, hget] at hstep
      split at hstep
      · rename_i kind' id' message' key runtime heq
        rw [Option.some.injEq, Frame.forward.injEq] at heq
        rcases heq with ⟨rfl, rfl, rfl, rfl⟩
        rw [← Option.some.inj hstep]
        cases result with
        | ok response =>
            exact ⟨[], _, Table.get?_set_self _ _ _, rfl, .answered key runtime response⟩
        | error error => exact ⟨[], _, Table.get?_set_self _ _ _, rfl, .failed key runtime error⟩
      · exact absurd hstep (by simp)

/-- A section of `acquire_or_spawn` forwards nothing. -/
theorem not_forwarded_of_acquire (call : CallId) (now : Instant) (r r' : SessionRegistry)
    (key : SessionKey) (clientKind : Option ClientKind) (pc pc' : AcquirePc)
    (events : List Event) (h : pc.section call key clientKind now r = some (r', pc', events))
    (c : CallId) (id : String) (runtime : RuntimeId) (message : Json) :
    Event.forwarded c id runtime message ∉ events := by
  cases pc with
  | count | gate | dropGate error =>
      simp only [AcquirePc.section, Option.some.injEq, Prod.mk.injEq] at h
      rw [← h.2.2]
      exact List.not_mem_nil
  | lookup g =>
      simp only [AcquirePc.section] at h
      split at h
      · simp only [Option.some.injEq, Prod.mk.injEq] at h
        rw [← h.2.2]
        simp
      · simp only [Option.some.injEq, Prod.mk.injEq] at h
        rw [← h.2.2]
        exact List.not_mem_nil
  | enter g =>
      simp only [AcquirePc.section] at h
      split at h
      · simp only [Option.some.injEq, Prod.mk.injEq] at h
        rw [← h.2.2]
        simp
      · simp only [Option.some.injEq, Prod.mk.injEq] at h
        rw [← h.2.2]
        exact List.not_mem_nil
  | spawning g => exact absurd h (by simp [AcquirePc.section])
  | leave g result =>
      cases result <;>
        simp only [AcquirePc.section, Option.some.injEq, Prod.mk.injEq] at h <;>
        rw [← h.2.2] <;>
        exact List.not_mem_nil
  | publish handle =>
      simp only [AcquirePc.section, Option.some.injEq, Prod.mk.injEq] at h
      rw [← h.2.2, List.mem_cons]
      split <;> simp
  | waiting g epoch =>
      simp only [AcquirePc.section, Option.ite_none_right_eq_some, Option.some.injEq,
        Prod.mk.injEq] at h
      rw [← h.2.2.2]
      exact List.not_mem_nil
  | returned result => exact absurd h (by simp [AcquirePc.section])

/-- A message is forwarded by the section that finds the session. -/
theorem section_forwarded (call : CallId) (now : Instant) (r r' : SessionRegistry)
    (frame frame' : Frame) (events : List Event)
    (h : frame.section call now r = some (r', frame', events)) (c : CallId) (id : String)
    (runtime : RuntimeId) (message : Json)
    (hmem : Event.forwarded c id runtime message ∈ events) :
    c = call ∧ ∃ kind key, frame = .forward kind id message (.session key) ∧
      frame' = .forward kind id message (.awaiting key runtime) := by
  cases frame with
  | acquire key clientKind pc =>
      rcases section_acquire call now r r' key clientKind pc frame' events h with
        ⟨lease, _, _, _, hevents⟩ | ⟨pc', hsec, _⟩
      · rw [hevents] at hmem
        simp at hmem
      · exact absurd hmem (not_forwarded_of_acquire call now r r' key clientKind pc pc' events hsec
          c id runtime message)
  | attached lease handle => exact absurd h (by simp [Frame.section])
  | release id pc | remove key pc =>
      simp only [Frame.section, Option.map_eq_some_iff, Prod.exists, Prod.mk.injEq] at h
      rcases h with ⟨_, _, _, _, _, hevents⟩
      rw [← hevents] at hmem
      exact absurd hmem List.not_mem_nil
  | forward kind id' message' pc =>
      simp only [Frame.section, Option.map_eq_some_iff, Prod.exists, Prod.mk.injEq] at h
      rcases h with ⟨r₁, pc', evs, hsec, _, hframe, hevents⟩
      rw [← hevents] at hmem
      cases forward_section call now r r₁ id' message' pc pc' evs hsec with
      | found key rt =>
          rw [List.mem_singleton, Event.forwarded.injEq] at hmem
          rcases hmem with ⟨rfl, rfl, rfl, rfl⟩
          exact ⟨rfl, kind, key, rfl, hframe.symm⟩
      | _ => exact absurd hmem List.not_mem_nil
  | touch key returned | increment evictor returned | crash returned =>
      simp only [Frame.section, Option.ite_none_left_eq_some, Option.some.injEq,
        Prod.mk.injEq] at h
      rw [← h.2.2.2] at hmem
      exact absurd hmem List.not_mem_nil
  | mark key notice returned =>
      simp only [Frame.section, Option.ite_none_left_eq_some, Option.some.injEq,
        Prod.mk.injEq] at h
      rw [← h.2.2.2, markEvents] at hmem
      split at hmem <;> simp at hmem
  | idle start result =>
      cases result with
      | some handles => exact absurd h (by simp [Frame.section])
      | none =>
          simp only [Frame.section, Option.some.injEq, Prod.mk.injEq] at h
          rw [← h.2.2] at hmem
          simp at hmem

/-- The runtimes a call has forwarded its message to. -/
def routedTo (call : CallId) (log : List Event) : List RuntimeId :=
  log.filterMap fun event => match event with
    | .forwarded c _ runtime _ => if c = call then some runtime else none
    | _ => none

theorem routedTo_append (call : CallId) (events log : List Event) :
    routedTo call (events ++ log) = routedTo call events ++ routedTo call log :=
  List.filterMap_append

theorem routedTo_eq_nil (call : CallId) (events : List Event)
    (h : ∀ id runtime message, Event.forwarded call id runtime message ∉ events) :
    routedTo call events = [] := by
  rw [routedTo, List.filterMap_eq_nil_iff]
  intro event hmem
  cases event with
  | forwarded c id runtime message =>
      by_cases hc : c = call
      · rw [hc] at hmem
        exact absurd hmem (h id runtime message)
      · exact if_neg hc
  | _ => rfl

theorem mem_routedTo (call : CallId) (log : List Event) (runtime : RuntimeId) :
    runtime ∈ routedTo call log ↔ ∃ id message, Event.forwarded call id runtime message ∈ log := by
  rw [routedTo, List.mem_filterMap]
  constructor
  · rintro ⟨event, hmem, hevent⟩
    cases event with
    | forwarded c id rt message =>
        simp only [Option.ite_none_right_eq_some, Option.some.injEq] at hevent
        rw [hevent.1, hevent.2] at hmem
        exact ⟨id, message, hmem⟩
    | _ => exact absurd hevent (by simp)
  · rintro ⟨id, message, hmem⟩
    exact ⟨_, hmem, by simp⟩

/-- A step forwards nothing for a call that it does not move. -/
theorem routedTo_other (w w' : World) (a : Action) (hstep : w.step a = some w') (call : CallId)
    (hmover : a.mover ≠ some call) : routedTo call w'.log = routedTo call w.log := by
  cases a with
  | tick span => rw [← Option.some.inj hstep]
  | start c method =>
      simp only [World.step] at hstep
      split at hstep
      · exact absurd hstep (by simp)
      · rw [← Option.some.inj hstep]
  | sect c =>
      simp only [World.step] at hstep
      split at hstep
      · exact absurd hstep (by simp)
      · rename_i frame hget
        simp only [Option.map_eq_some_iff, Prod.exists] at hstep
        rcases hstep with ⟨r', frame', events, hsec, hw'⟩
        have hnone : routedTo call events = [] := by
          refine routedTo_eq_nil call events fun id runtime message hmem => ?_
          rcases section_forwarded c w.now w.reg r' frame frame' events hsec call id runtime message
            hmem with ⟨hcall, _⟩
          exact hmover (by rw [hcall]; rfl)
        rw [← hw', World.moved, routedTo_append, hnone, List.nil_append]
  | spawnReturns c result =>
      simp only [World.step] at hstep
      split at hstep
      · rw [← Option.some.inj hstep]
        cases result <;> rfl
      · exact absurd hstep (by simp)
  | runtimeReturns c result =>
      simp only [World.step] at hstep
      split at hstep
      · rw [← Option.some.inj hstep]
        cases result <;> rfl
      · exact absurd hstep (by simp)

/-- A call that forwards a message stays with the runtime it has found, if it
    has, or goes on. -/
theorem routed_step (w w' : World) (a : Action) (hstep : w.step a = some w') (call : CallId)
    (kind : ForwardKind) (id : String) (message : Json) (pc : ForwardPc)
    (hget : w.calls.get? call = some (.forward kind id message pc)) :
    w'.calls.get? call = some (.forward kind id message pc) ∧
        routedTo call w'.log = routedTo call w.log ∨
      ∃ events pc', w'.calls.get? call = some (.forward kind id message pc') ∧
        ForwardPc.Advances call id message pc a events pc' ∧
        routedTo call w'.log = routedTo call events ++ routedTo call w.log := by
  rcases forward_step w w' a hstep call kind id message pc hget with
    ⟨hmover, hsame⟩ | ⟨events, pc', hnew, hlog, hadvances⟩
  · exact Or.inl ⟨hsame, routedTo_other w w' a hstep call hmover⟩
  · exact Or.inr ⟨events, pc', hnew, hadvances, by rw [hlog, routedTo_append]⟩

/-- A call that has begun is there from then on. -/
theorem calls_stay (w w' : World) (a : Action) (hstep : w.step a = some w') (c : CallId)
    (h : w'.calls.get? c = none) : w.calls.get? c = none ∧ a.mover ≠ some c := by
  cases step_effect w w' a hstep with
  | tick span => exact ⟨h, by simp [Action.mover]⟩
  | start call method hfree =>
      by_cases hc : c = call
      · rw [hc]
        exact ⟨hfree, by simp [Action.mover]⟩
      · rw [Table.get?_set_ne _ _ _ _ hc] at h
        exact ⟨h, by simp [Action.mover]⟩
  | move _ call frame frame' r' events hmover hcall heffect =>
      have hc : c ≠ call := fun hc => by
        rw [hc, World.moved, Table.get?_set_self] at h
        exact absurd h (by simp)
      rw [World.moved, Table.get?_set_ne _ _ _ _ hc] at h
      refine ⟨h, fun heq => hc ?_⟩
      rw [hmover, Option.some.injEq] at heq
      exact heq.symm
  | spawnOk call key clientKind g initializeResult hcall =>
      have hc : c ≠ call := fun hc => by
        rw [hc, World.spawnReturn, World.moved, Table.get?_set_self] at h
        exact absurd h (by simp)
      rw [World.spawnReturn, World.moved, Table.get?_set_ne _ _ _ _ hc] at h
      exact ⟨h, fun heq => hc (Option.some.inj heq).symm⟩

/-- A message is forwarded to a runtime that is there. -/
theorem routed_bound (w w' : World) (a : Action) (hstep : w.step a = some w') (hfresh : Fresh w)
    (hbound : ∀ c, ∀ runtime ∈ routedTo c w.log, runtime < w.nextRuntime) (c : CallId)
    (runtime : RuntimeId) (hmem : runtime ∈ routedTo c w'.log) : runtime < w'.nextRuntime := by
  have hle : w.nextRuntime ≤ w'.nextRuntime := by
    rcases World.nextRuntime_step w w' a hstep with heq | ⟨_, _, _, heq⟩
    · exact heq ▸ Nat.le_refl _
    · exact heq ▸ Nat.le_succ _
  rcases (mem_routedTo c w'.log runtime).mp hmem with ⟨id, message, hevent⟩
  have hold : Event.forwarded c id runtime message ∈ w.log → runtime < w'.nextRuntime := fun h =>
    Nat.lt_of_lt_of_le (hbound c runtime ((mem_routedTo c w.log runtime).mpr ⟨id, message, h⟩)) hle
  cases step_effect w w' a hstep with
  | tick span => exact hold hevent
  | start call method hfree => exact hold hevent
  | spawnOk call key clientKind g initializeResult hcall =>
      exact hold ((List.mem_cons.mp hevent).resolve_left (by simp))
  | move _ call frame frame' r' events hmover hcall heffect =>
      rcases List.mem_append.mp hevent with hnew | hevent
      · -- the session it was found in is registered
        cases heffect with
        | quiet _ _ _ _ hkept hleases hseq hlog hrel hrel' hclear hclear' hpend hroute =>
            rcases hroute.forwarded c id runtime message hnew with ⟨key, record, _, hget, hrt⟩
            have hreg := hfresh.bound key _ (hfresh.registered key record hget)
            rw [hrt] at hreg
            exact Nat.lt_of_lt_of_le hreg hle
        | grant key clientKind pc record counters hrecord hpc => exact absurd hnew (by simp)
        | register key clientKind handle counters hnone => exact absurd hnew (by simp)
        | take id' lease hlease => exact absurd hnew List.not_mem_nil
        | decrement id' key => exact absurd hnew List.not_mem_nil
        | removeSession key => exact absurd hnew List.not_mem_nil
        | removeLeases key => exact absurd hnew List.not_mem_nil
      · exact hold hevent

end Lspee
