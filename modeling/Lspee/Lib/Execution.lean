import Mathlib.Order.Lattice
import Mathlib.Order.Nat
import Mathlib.Tactic.ByContra
import Lspee.Lib.Transition

/-!
# Executions without an End

What a run says of the steps that were taken, an execution says of those that will
be: a state for every moment, and the action that is taken in it, if any is. Every
finite part of an execution is a run, so what holds in every state of every run holds
at every moment, and the other way round (`forall_iff_always`, `steps_iff_along`).

That something happens sooner or later needs that some steps are not put off for
ever. `Fair` says it of the steps of one party: if from some moment on it can always
move, then it does. `takes_of_fair` is the rule that goes with it. A state that only
the party itself can leave, and in which it can move from some moment on, is left by
a step of the party.

## Main definitions

* `Execution`: States and actions, moment after moment.
* `Execution.before`: What has been done before a moment.
* `Execution.Steps`: A condition holds at every step.
* `Execution.Fair`: The steps of a party are not put off for ever.
* `Execution.ofRun`: A run, after which nothing happens.

## Theorems

* `run_before`: What has been done is a run.
* `forall_iff_always`, `steps_iff_along`: Properties and conditions of the runs.
* `persists`: What every step keeps stays.
* `takes_of_fair`: A party that is waited for moves.
* `fair_ofRun`: When nothing has been put off.
-/

namespace Transition

variable {σ α : Type*}

/-- A state for every moment. In a moment without an action nothing changes. -/
structure Execution (step : σ → α → Option σ) where
  state : Nat → σ
  action : Nat → Option α
  next : ∀ n, (action n).elim (some (state n)) (step (state n)) = some (state (n + 1))

namespace Execution

variable {step : σ → α → Option σ} (e : Execution step)

/-- What has been done before a moment. -/
def before : Nat → List α
  | 0 => []
  | n + 1 => before n ++ (e.action n).toList

/-- The condition holds at every step that is taken. -/
def Steps (C : σ → α → Prop) : Prop := ∀ n, ∀ a ∈ e.action n, C (e.state n) a

/-- If from some moment on a step of the kind can always be taken, one is. -/
def Fair (own : α → Prop) : Prop :=
  ∀ n, (∀ m ≥ n, ∃ a s', own a ∧ step (e.state m) a = some s') →
    ∃ m ≥ n, ∃ a ∈ e.action m, own a

theorem next_none (n : Nat) (h : e.action n = none) : e.state (n + 1) = e.state n := by
  have hnext := e.next n
  rw [h, Option.elim_none, Option.some.injEq] at hnext
  exact hnext.symm

theorem next_some (n : Nat) (a : α) (h : e.action n = some a) :
    step (e.state n) a = some (e.state (n + 1)) := by
  have hnext := e.next n
  rwa [h, Option.elim_some] at hnext

/-! ### The runs of an execution -/

/-- What is done in one moment is a run. -/
theorem run_moment (n : Nat) :
    run step (e.state n) (e.action n).toList = some (e.state (n + 1)) := by
  cases h : e.action n with
  | none => rw [Option.toList_none, run, e.next_none n h]
  | some a =>
      rw [Option.toList_some, run_cons a [] _ _ (e.next_some n a h), run]

theorem run_before (n : Nat) : run step (e.state 0) (e.before n) = some (e.state n) := by
  induction n with
  | zero => rfl
  | succ n ih => rw [before, run_append _ _ _ _ ih, e.run_moment]

theorem steps_iff_along (C : σ → α → Prop) :
    e.Steps C ↔ ∀ n, Along step C (e.state 0) (e.before n) := by
  have hmoment : ∀ n, Along step C (e.state n) (e.action n).toList ↔
      ∀ a ∈ e.action n, C (e.state n) a := by
    intro n
    cases h : e.action n with
    | none => simp only [Option.toList_none, Along, Option.mem_def, reduceCtorEq, false_implies,
        implies_true]
    | some a =>
        simp only [Option.toList_some, Along, e.next_some n a h, Option.some.injEq, forall_eq',
          and_true, Option.mem_def]
  constructor
  · intro h n
    induction n with
    | zero => trivial
    | succ n ih =>
        rw [before, along_append _ _ _ _ (e.run_before n)]
        exact ⟨ih, (hmoment n).mpr (h n)⟩
  · intro h n
    have hsucc := h (n + 1)
    rw [before, along_append _ _ _ _ (e.run_before n)] at hsucc
    exact (hmoment n).mp hsucc.2

theorem forall_iff_always (P : σ → Prop) :
    (∀ n, P (e.state n)) ↔ ∀ n, Always step P (e.state 0) (e.before n) := by
  constructor
  · intro h n
    induction n with
    | zero => exact h 0
    | succ n ih =>
        rw [before, always_append _ _ _ _ (e.run_before n)]
        refine ⟨ih, ?_⟩
        cases haction : e.action n with
        | none => exact h n
        | some a =>
            refine ⟨h n, fun s' hs' => ?_⟩
            rw [e.next_some n a haction, Option.some.injEq] at hs'
            rw [← hs']
            exact h (n + 1)
  · intro h n
    exact always_last _ _ _ (e.run_before n) (h n)

/-! ### What stays, and what comes -/

/-- What every step keeps stays. -/
theorem persists {P : σ → Prop} (hkeep : ∀ s a s', P s → step s a = some s' → P s') (n : Nat)
    (hn : P (e.state n)) : ∀ m ≥ n, P (e.state m) := by
  intro m hm
  induction m, hm using Nat.le_induction with
  | base => exact hn
  | succ m _ ih =>
      cases h : e.action m with
      | none =>
          rw [e.next_none m h]
          exact ih
      | some a => exact hkeep _ a _ ih (e.next_some m a h)

variable {e}

/-- A state that is left by steps of the party only, and in which it can move from some
    moment on, is left by one. -/
theorem takes_of_fair {own : α → Prop} (hfair : e.Fair own) {P : σ → Prop}
    (hkeep : ∀ s a s', P s → step s a = some s' → ¬own a → P s') (n k : Nat)
    (hn : P (e.state n))
    (hcan : ∀ m ≥ k, P (e.state m) → ∃ a s', own a ∧ step (e.state m) a = some s') :
    ∃ m ≥ n, P (e.state m) ∧ ∃ a ∈ e.action m, own a := by
  by_contra hno
  -- The party has not moved, and the state is as it was.
  have hstays : ∀ m ≥ n, P (e.state m) := by
    intro m hm
    induction m, hm using Nat.le_induction with
    | base => exact hn
    | succ m hm ih =>
        cases h : e.action m with
        | none =>
            rw [e.next_none m h]
            exact ih
        | some a =>
            exact hkeep _ a _ ih (e.next_some m a h) fun hown => hno ⟨m, hm, ih, a, h, hown⟩
  rcases hfair (max n k) (fun m hm => hcan m (le_trans (le_max_right n k) hm)
    (hstays m (le_trans (le_max_left n k) hm))) with ⟨m, hm, hown⟩
  have hnm := le_trans (le_max_left n k) hm
  exact hno ⟨m, hnm, hstays m hnm, hown⟩

/-! ### A run, and nothing more -/

theorem run_take (as : List α) (s t : σ) (h : run step s as = some t) (n : Nat) :
    ∃ u, run step s (as.take n) = some u := by
  induction as generalizing s n with
  | nil => exact ⟨s, by rw [List.take_nil, run]⟩
  | cons a as ih =>
      rcases exists_of_run_cons a as s t h with ⟨s', hs', hrest⟩
      cases n with
      | zero => exact ⟨s, rfl⟩
      | succ n =>
          rcases ih s' hrest n with ⟨u, hu⟩
          exact ⟨u, by rw [List.take_succ_cons, run_cons a _ s s' hs', hu]⟩

/-- A run, after which nothing happens. -/
def ofRun (as : List α) (s t : σ) (h : run step s as = some t) : Execution step where
  state n := (run step s (as.take n)).getD t
  action n := as[n]?
  next := by
    intro n
    rcases run_take as s t h n with ⟨u, hu⟩
    rcases run_take as s t h (n + 1) with ⟨v, hv⟩
    rw [hu, hv, Option.getD_some, Option.getD_some]
    rw [List.take_add_one, run_append _ _ _ _ hu] at hv
    cases hat : as[n]? with
    | none =>
        rw [hat] at hv
        exact hv
    | some a =>
        rw [hat] at hv
        rcases exists_of_run_cons a [] u v hv with ⟨w, hw, hlast⟩
        rw [Option.elim_some, hw]
        exact hlast

theorem state_ofRun_end (as : List α) (s t : σ) (h : run step s as = some t) (n : Nat)
    (hn : as.length ≤ n) : (ofRun as s t h).state n = t := by
  show (run step s (as.take n)).getD t = t
  rw [List.take_of_length_le hn, h, Option.getD_some]

/-- Nothing is put off if the last step is one of the party, and it cannot move at the
    end. -/
theorem fair_ofRun {own : α → Prop} (as : List α) (a : α) (s t : σ)
    (h : run step s (as ++ [a]) = some t) (ha : own a)
    (hend : ∀ b, own b → step t b = none) : (ofRun (as ++ [a]) s t h).Fair own := by
  intro n hcan
  by_cases hn : n ≤ as.length
  · refine ⟨as.length, hn, a, ?_, ha⟩
    show (as ++ [a])[as.length]? = some a
    rw [List.getElem?_append_right (le_refl _), Nat.sub_self, List.getElem?_cons_zero]
  · rcases hcan n (le_refl n) with ⟨b, s', hown, hstep⟩
    rw [state_ofRun_end _ s t h n (by simp; omega), hend b hown] at hstep
    cases hstep

end Execution

end Transition
