import Mathlib.Logic.Basic

/-!
# Runs of a Transition Function

A system whose steps are named by actions: `step s a` is the state after action
`a`, or `none` when `a` is not enabled in `s`. Every choice the environment can
make (which task moves, what a call returns, how long a wait takes) is part of
the action, so the step stays a function and a run is a list of actions.

A property of every reachable state is shown with `run_invariant`: it holds at
the start and one step keeps it. Many of the properties met in practice hold
only as long as some step is not taken in some state. `Along C` says that every
step of a run meets the condition `C`, and the invariant rule takes it as a
premise. When the condition is also what the property needs at each step,
`always_iff_along` gives both directions at once, so that the condition is
exact.

## Main definitions

* `run`: The state a list of actions leads to.
* `Always`: A property holds in every state of a run.
* `Along`: A condition holds at every step of a run.

## Theorems

* `run_append`: Splitting a run.
* `along_append`, `always_append`: Splitting a condition or a property along a run.
* `along_true`: The trivial condition holds along every run.
* `along_of_forall`: A condition on the actions alone.
* `along_and`: Two conditions along a run.
* `along_mono`: Weakening a condition along a run.
* `exists_of_not_along`: Where a condition fails along a run.
* `always_first`, `always_last`: A property of all states holds in the first one
  and in the last one.
* `run_invariant`: The invariant rule, under a condition on the steps.
* `always_of_invariant`, `along_of_invariant`: What the invariant gives in each
  state, and at each step.
* `exists_run`: The invariant rule for a system in which nothing gets stuck.
* `exists_along_of_progress`, `exists_run_of_progress`: Steps that leave less and
  less to do.
* `always_iff_along`: A condition that each step needs and that suffices.
* `last_iff_along`: A property that is lost for good where the condition fails.
* `decidableAlong`: A decidable condition along a run is decided by running it.
-/

namespace Transition

variable {σ α : Type*} (step : σ → α → Option σ)

/-- The state a list of actions leads to, or `none` when one of them is not
    enabled. -/
def run : σ → List α → Option σ
  | s, [] => some s
  | s, a :: as => match step s a with
    | none => none
    | some s' => run s' as

/-- The property holds in every state of the run, the first and the last
    included. -/
def Always (P : σ → Prop) : σ → List α → Prop
  | s, [] => P s
  | s, a :: as => P s ∧ ∀ s', step s a = some s' → Always P s' as

/-- The condition holds at every step the run takes. -/
def Along (C : σ → α → Prop) : σ → List α → Prop
  | _, [] => True
  | s, a :: as => ∀ s', step s a = some s' → C s a ∧ Along C s' as

variable {step}

theorem run_append (as bs : List α) (s t : σ) (h : run step s as = some t) :
    run step s (as ++ bs) = run step t bs := by
  induction as generalizing s with
  | nil =>
      simp only [run, Option.some.injEq] at h
      rw [h, List.nil_append]
  | cons a as ih =>
      simp only [run, List.cons_append] at h ⊢
      cases hstep : step s a with
      | none =>
          rw [hstep] at h
          exact absurd h (by simp only [reduceCtorEq, not_false_eq_true])
      | some s' =>
          rw [hstep] at h
          exact ih s' h

theorem run_cons (a : α) (as : List α) (s s' : σ) (h : step s a = some s') :
    run step s (a :: as) = run step s' as := by
  simp only [run, h]

/-- A run that succeeds succeeded at its first step. -/
theorem exists_of_run_cons (a : α) (as : List α) (s t : σ) (h : run step s (a :: as) = some t) :
    ∃ s', step s a = some s' ∧ run step s' as = some t := by
  simp only [run] at h
  cases hstep : step s a with
  | none =>
      rw [hstep] at h
      exact absurd h (by simp only [reduceCtorEq, not_false_eq_true])
  | some s' =>
      rw [hstep] at h
      exact ⟨s', rfl, h⟩

theorem always_first {P : σ → Prop} (as : List α) (s : σ) (h : Always step P s as) : P s := by
  cases as with
  | nil => exact h
  | cons a as => exact h.1

theorem along_append {C : σ → α → Prop} (as bs : List α) (s t : σ)
    (h : run step s as = some t) :
    Along step C s (as ++ bs) ↔ Along step C s as ∧ Along step C t bs := by
  induction as generalizing s with
  | nil =>
      simp only [run, Option.some.injEq] at h
      rw [h, List.nil_append]
      simp only [Along, true_and]
  | cons a as ih =>
      rcases exists_of_run_cons a as s t h with ⟨s', hstep, hrest⟩
      simp only [List.cons_append, Along, hstep, Option.some.injEq, forall_eq']
      rw [ih s' hrest, and_assoc]

theorem always_append {P : σ → Prop} (as bs : List α) (s t : σ) (h : run step s as = some t) :
    Always step P s (as ++ bs) ↔ Always step P s as ∧ Always step P t bs := by
  induction as generalizing s with
  | nil =>
      simp only [run, Option.some.injEq] at h
      rw [h, List.nil_append]
      exact ⟨fun hP => ⟨always_first bs t hP, hP⟩, fun hP => hP.2⟩
  | cons a as ih =>
      rcases exists_of_run_cons a as s t h with ⟨s', hstep, hrest⟩
      simp only [List.cons_append, Always, hstep, Option.some.injEq, forall_eq']
      rw [ih s' hrest, and_assoc]

theorem along_true (as : List α) (s : σ) : Along step (fun _ _ => True) s as := by
  induction as generalizing s with
  | nil => trivial
  | cons a as ih => exact fun s' _ => ⟨trivial, ih s'⟩

theorem along_of_forall {C : α → Prop} (as : List α) (s : σ) (h : ∀ a ∈ as, C a) :
    Along step (fun _ a => C a) s as := by
  induction as generalizing s with
  | nil => trivial
  | cons a as ih =>
      refine fun s' _ => ⟨h a List.mem_cons_self, ih s' fun b hb => ?_⟩
      exact h b (List.mem_cons_of_mem a hb)

/-- Two conditions along a run are one. -/
theorem along_and {C D : σ → α → Prop} (as : List α) (s : σ) (hC : Along step C s as)
    (hD : Along step D s as) : Along step (fun s a => C s a ∧ D s a) s as := by
  induction as generalizing s with
  | nil => trivial
  | cons a as ih =>
      intro s' hstep
      rcases hC s' hstep with ⟨hCa, hCrest⟩
      rcases hD s' hstep with ⟨hDa, hDrest⟩
      exact ⟨⟨hCa, hDa⟩, ih s' hCrest hDrest⟩

theorem along_mono {C D : σ → α → Prop} (hCD : ∀ s a, C s a → D s a) (as : List α) (s : σ)
    (h : Along step C s as) : Along step D s as := by
  induction as generalizing s with
  | nil => trivial
  | cons a as ih =>
      intro s' hstep
      exact ⟨hCD s a (h s' hstep).1, ih s' (h s' hstep).2⟩

theorem always_last {P : σ → Prop} (as : List α) (s t : σ) (h : run step s as = some t)
    (hP : Always step P s as) : P t := by
  induction as generalizing s with
  | nil =>
      simp only [run, Option.some.injEq] at h
      rw [← h]
      exact hP
  | cons a as ih =>
      rcases exists_of_run_cons a as s t h with ⟨s', hstep, hrest⟩
      exact ih s' hrest (hP.2 s' hstep)

/-- A condition that fails along a run fails at one of its steps. -/
theorem exists_of_not_along {C : σ → α → Prop} (as : List α) (s : σ)
    (hC : ¬Along step C s as) :
    ∃ bs a cs u u', as = bs ++ a :: cs ∧ run step s bs = some u ∧ step u a = some u' ∧
      ¬C u a := by
  induction as generalizing s with
  | nil => exact absurd trivial hC
  | cons a as ih =>
      simp only [Along, not_forall] at hC
      rcases hC with ⟨s', hs', hC⟩
      by_cases hCa : C s a
      · have hCrest : ¬Along step C s' as := fun hrest => hC ⟨hCa, hrest⟩
        rcases ih s' hCrest with ⟨bs, b, cs, u, u', has, hrun, hstep, hCu⟩
        refine ⟨a :: bs, b, cs, u, u', by rw [has, List.cons_append], ?_, hstep, hCu⟩
        rw [run_cons a bs s s' hs', hrun]
      · exact ⟨[], a, as, s, s', rfl, rfl, hs', hCa⟩

/-- The invariant rule. A property that holds at the start and that every step
    meeting the condition keeps holds at the end of every run whose steps all
    meet the condition. -/
theorem run_invariant {I : σ → Prop} {C : σ → α → Prop}
    (hstep : ∀ s a s', I s → step s a = some s' → C s a → I s') (as : List α) (s t : σ)
    (h : run step s as = some t) (hs : I s) (hC : Along step C s as) : I t := by
  induction as generalizing s with
  | nil =>
      simp only [run, Option.some.injEq] at h
      rw [← h]
      exact hs
  | cons a as ih =>
      rcases exists_of_run_cons a as s t h with ⟨s', hs', hrest⟩
      rcases hC s' hs' with ⟨hCa, hCrest⟩
      exact ih s' hrest (hstep s a s' hs hs' hCa) hCrest

/-- What the invariant gives in each state holds in all states of a run whose
    steps meet the condition. -/
theorem always_of_invariant {I P : σ → Prop} {C : σ → α → Prop}
    (hstep : ∀ s a s', I s → step s a = some s' → C s a → I s') (hP : ∀ s, I s → P s)
    (as : List α) (s : σ) (hs : I s) (hC : Along step C s as) : Always step P s as := by
  induction as generalizing s with
  | nil => exact hP s hs
  | cons a as ih =>
      refine ⟨hP s hs, fun s' hs' => ?_⟩
      rcases hC s' hs' with ⟨hCa, hCrest⟩
      exact ih s' (hstep s a s' hs hs' hCa) hCrest

/-- What a step needs the invariant for holds along every run. -/
theorem along_of_invariant {I : σ → Prop} {C D : σ → α → Prop}
    (hstep : ∀ s a s', I s → step s a = some s' → C s a → I s' ∧ D s a) (as : List α) (s : σ)
    (hs : I s) (hC : Along step C s as) : Along step D s as := by
  induction as generalizing s with
  | nil => trivial
  | cons a as ih =>
      intro s' hs'
      rcases hC s' hs' with ⟨hCa, hCrest⟩
      rcases hstep s a s' hs hs' hCa with ⟨hs'', hDa⟩
      exact ⟨hDa, ih s' hs'' hCrest⟩

/-- Where every action is enabled in every state with the invariant, every list
    of actions leads somewhere. -/
theorem exists_run {I : σ → Prop} (hstep : ∀ s a, I s → ∃ s', step s a = some s' ∧ I s')
    (as : List α) (s : σ) (hs : I s) : ∃ t, run step s as = some t ∧ I t := by
  induction as generalizing s with
  | nil => exact ⟨s, rfl, hs⟩
  | cons a as ih =>
      rcases hstep s a hs with ⟨s', hs', hI⟩
      rcases ih s' hI with ⟨t, ht, hIt⟩
      exact ⟨t, by rw [run_cons a as s s' hs', ht], hIt⟩

/-- Where a step meeting the condition is enabled as long as the goal is not
    reached, and leaves less to do, a run of such steps reaches the goal. -/
theorem exists_along_of_progress {I G : σ → Prop} {C : σ → α → Prop} (weight : σ → Nat)
    (hprogress : ∀ s, I s → G s ∨
      ∃ a s', C s a ∧ step s a = some s' ∧ I s' ∧ weight s' < weight s) (s : σ) (hs : I s) :
    ∃ as t, Along step C s as ∧ run step s as = some t ∧ G t := by
  induction hw : weight s using Nat.strongRecOn generalizing s with
  | ind w ih =>
      rcases hprogress s hs with hgoal | ⟨a, s', ha, hstep, hs', hless⟩
      · exact ⟨[], s, trivial, rfl, hgoal⟩
      · rw [← hw] at ih
        rcases ih (weight s') hless s' hs' rfl with ⟨as, t, has, hrun, hgoal⟩
        refine ⟨a :: as, t, fun u hu => ?_, by rw [run_cons a as s s' hstep, hrun], hgoal⟩
        rw [hstep, Option.some.injEq] at hu
        rw [← hu]
        exact ⟨ha, has⟩

/-- A condition on the actions alone that is met along a run is met by all of
    them. -/
theorem forall_of_along {C : α → Prop} (as : List α) (s t : σ) (h : run step s as = some t)
    (hC : Along step (fun _ a => C a) s as) : ∀ a ∈ as, C a := by
  induction as generalizing s with
  | nil => exact fun a ha => absurd ha List.not_mem_nil
  | cons b as ih =>
      rcases exists_of_run_cons b as s t h with ⟨s', hs', hrest⟩
      intro a ha
      rcases List.mem_cons.mp ha with ha | ha
      · rw [ha]
        exact (hC s' hs').1
      · exact ih s' hrest (hC s' hs').2 a ha

/-- Where a step of some kind is enabled as long as the goal is not reached, and
    every such step leaves less to do, steps of that kind alone reach the goal. -/
theorem exists_run_of_progress {I G : σ → Prop} {A : α → Prop} (weight : σ → Nat)
    (hprogress : ∀ s, I s → G s ∨
      ∃ a s', A a ∧ step s a = some s' ∧ I s' ∧ weight s' < weight s) (s : σ) (hs : I s) :
    ∃ as t, (∀ a ∈ as, A a) ∧ run step s as = some t ∧ G t := by
  rcases exists_along_of_progress (C := fun _ a => A a) weight hprogress s hs with
    ⟨as, t, has, hrun, hgoal⟩
  exact ⟨as, t, forall_of_along as s t hrun has, hrun, hgoal⟩

/-- A condition on the steps is exact for a property when a step that meets it
    keeps the property (with an invariant), and a step that leads to a state
    with the property met the condition. Both may rest on a premise `D` that
    every step of the run is known to meet. -/
theorem always_iff_along {I P : σ → Prop} {C D : σ → α → Prop}
    (hkeep : ∀ s a s', I s → P s → step s a = some s' → D s a → C s a → I s' ∧ P s')
    (hneed : ∀ s a s', I s → P s → step s a = some s' → D s a → P s' → C s a)
    (as : List α) (s : σ) (hI : I s) (hP : P s) (hD : Along step D s as) :
    Always step P s as ↔ Along step C s as := by
  induction as generalizing s with
  | nil => exact ⟨fun _ => trivial, fun _ => hP⟩
  | cons a as ih =>
      constructor
      · intro h s' hs'
        rcases hD s' hs' with ⟨hDa, hDrest⟩
        have hP' : P s' := always_first as s' (h.2 s' hs')
        have hC := hneed s a s' hI hP hs' hDa hP'
        exact ⟨hC, (ih s' (hkeep s a s' hI hP hs' hDa hC).1 hP' hDrest).mp (h.2 s' hs')⟩
      · intro h
        refine ⟨hP, fun s' hs' => ?_⟩
        rcases h s' hs' with ⟨hC, hrest⟩
        rcases hD s' hs' with ⟨hDa, hDrest⟩
        rcases hkeep s a s' hI hP hs' hDa hC with ⟨hI', hP'⟩
        exact (ih s' hI' hP' hDrest).mpr hrest

/-- A property that no step brings back. A step keeps it exactly when it meets the
    condition, so it holds at the end exactly when every step met it. -/
theorem last_iff_along {I G : σ → Prop} {C : σ → α → Prop}
    (hstep : ∀ s a s', I s → step s a = some s' → I s' ∧ (G s' ↔ G s ∧ C s a)) (as : List α)
    (s t : σ) (h : run step s as = some t) (hI : I s) : G t ↔ G s ∧ Along step C s as := by
  induction as generalizing s with
  | nil =>
      simp only [run, Option.some.injEq] at h
      rw [h]
      exact ⟨fun hG => ⟨hG, trivial⟩, fun hG => hG.1⟩
  | cons a as ih =>
      rcases exists_of_run_cons a as s t h with ⟨s', hs', hrest⟩
      rcases hstep s a s' hI hs' with ⟨hI', hone⟩
      simp only [Along, hs', Option.some.injEq, forall_eq']
      rw [ih s' hrest hI', hone, and_assoc]

/-- Whether a decidable condition holds along a run is decided by running it. -/
instance decidableAlong {C : σ → α → Prop} [∀ s a, Decidable (C s a)] :
    ∀ (s : σ) (as : List α), Decidable (Along step C s as)
  | _, [] => isTrue trivial
  | s, a :: as =>
    match h : step s a with
    | none => isTrue (fun s' h' => by rw [h] at h'; exact absurd h' (by simp))
    | some s' =>
      have : Decidable (Along step C s' as) := decidableAlong s' as
      decidable_of_iff (C s a ∧ Along step C s' as)
        ⟨fun hC t ht => by rw [h, Option.some.injEq] at ht; rw [← ht]; exact hC,
          fun hC => hC s' h⟩

end Transition
