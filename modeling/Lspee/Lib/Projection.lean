import Lspee.Lib.Transition
import Mathlib.Logic.Function.Basic

/-!
# Runs With Steps Left Out

Two runs are compared, of which the second makes only some of the steps of the
first. `project` takes the steps out: each action of the first run is shown to a
function in the state it is taken in, which leaves it out or says what the
second system does instead. A relation between the states that survives a step
left out, and a step made on both sides, survives the whole run, and the second
system is never stuck (`run_project`). What is taken out may also be an account of
the run, which each step goes on with (`run_project_append`).

The second run gives out fewer names than the first when both number what they
create. So the names of the two are matched: a `Pairing` is a relation that is
one to one and stays below both counters. It grows by the pair of the next names
when both sides create, and stays as it is when only the first side does. A name
of the first side that nothing is matched with is `Stray`, and it stays so. What
the names stand for is kept in two heaps; `Agree` says that matched names stand
for the same, and it survives an update of a matched pair, and one of a stray
name.

## Main definitions

* `Transition.project`: The steps of a run that are kept.
* `Pairing`: Names of two counters, one to one.
* `Pairing.extend`: The pair of the next names is matched as well.
* `Stray`: A name that is matched with none.
* `Agree`: Matched names stand for the same.

## Theorems

* `project_append`: Splitting a projected run.
* `run_project_append`: What is known of two lists that the actions add to.
* `run_project`: A relation that each step keeps is kept by the projected run.
* `pairing_extend`, `pairing_left`: Both sides create, or the first does.
* `stray_extend`, `stray_new`: A stray name stays so; a new one of the first
  side is stray.
* `agree_update`, `agree_stray`, `agree_extend`: The heaps.
-/

namespace Transition

variable {σ τ α β : Type*}

/-- What is left of a run when every action is left out or replaced, as a
    function says that sees it in its state. -/
def project (step : σ → α → Option σ) (f : σ → α → Option β) : σ → List α → List β
  | _, [] => []
  | s, a :: as => (f s a).toList ++ match step s a with
    | none => []
    | some s' => project step f s' as

theorem project_append {step : σ → α → Option σ} {f : σ → α → Option β} (as bs : List α) (s t : σ)
    (h : run step s as = some t) :
    project step f s (as ++ bs) = project step f s as ++ project step f t bs := by
  induction as generalizing s with
  | nil =>
      simp only [run, Option.some.injEq] at h
      rw [h]
      rfl
  | cons a as ih =>
      rcases exists_of_run_cons a as s t h with ⟨s', hs', hrest⟩
      simp only [List.cons_append, project, hs', ih s' hrest, List.append_assoc]

/-- What every step keeps of the state and of two lists that its actions add to is kept
    by the run. -/
theorem run_project_append {γ : Type*} {step : σ → α → Option σ} {f : σ → α → Option β}
    {g : σ → α → Option γ} {I : List β → List γ → σ → Prop}
    (hstep : ∀ xs ys s a s', step s a = some s' → I xs ys s →
      I (xs ++ (f s a).toList) (ys ++ (g s a).toList) s')
    (as : List α) (xs : List β) (ys : List γ) (s t : σ) (h : run step s as = some t)
    (hI : I xs ys s) : I (xs ++ project step f s as) (ys ++ project step g s as) t := by
  induction as generalizing s xs ys with
  | nil =>
      simp only [run, Option.some.injEq] at h
      simp only [project, List.append_nil]
      rw [← h]
      exact hI
  | cons a as ih =>
      rcases exists_of_run_cons a as s t h with ⟨s', hs', hrest⟩
      have hnext := ih _ _ s' hrest (hstep xs ys s a s' hs' hI)
      simp only [project, hs', List.append_assoc] at hnext ⊢
      exact hnext

/-- A relation that is kept when a step is left out, and when it is made on both
    sides, is kept by the whole run. A step may rest on what the run leads to. -/
theorem run_project {step : σ → α → Option σ} {step' : τ → β → Option τ}
    {f : σ → α → Option β} {R : σ → τ → Prop} (u : σ)
    (hdrop : ∀ s a s' as t, R s t → step s a = some s' → run step s' as = some u →
      f s a = none → R s' t)
    (hkeep : ∀ s a s' as t b, R s t → step s a = some s' → run step s' as = some u →
      f s a = some b → ∃ t', step' t b = some t' ∧ R s' t')
    (as : List α) (s : σ) (t : τ) (h : run step s as = some u) (hR : R s t) :
    ∃ t', run step' t (project step f s as) = some t' ∧ R u t' := by
  induction as generalizing s t with
  | nil =>
      simp only [run, Option.some.injEq] at h
      rw [h] at hR
      exact ⟨t, rfl, hR⟩
  | cons a as ih =>
      rcases exists_of_run_cons a as s u h with ⟨s', hs', hrest⟩
      simp only [project, hs']
      cases hf : f s a with
      | none => exact ih s' t hrest (hdrop s a s' as t hR hs' hrest hf)
      | some b =>
          rcases hkeep s a s' as t b hR hs' hrest hf with ⟨t', ht', hR'⟩
          rcases ih s' t' hrest hR' with ⟨v, hv, hRv⟩
          refine ⟨v, ?_, hRv⟩
          rw [Option.toList_some, List.singleton_append, run_cons b _ t t' ht']
          exact hv

end Transition

/-! ### Names -/

/-- The names below the first counter and below the second are matched one to
    one. -/
structure Pairing (R : Nat → Nat → Prop) (n n' : Nat) : Prop where
  bound : ∀ a b, R a b → a < n ∧ b < n'
  one : ∀ a b c d, R a b → R c d → (a = c ↔ b = d)

namespace Pairing

/-- The names matched so far, and the next ones. -/
def extend (R : Nat → Nat → Prop) (n n' : Nat) (a b : Nat) : Prop :=
  R a b ∨ (a = n ∧ b = n')

end Pairing

/-- The name is given out, and matched with none. -/
def Stray (R : Nat → Nat → Prop) (n : Nat) (a : Nat) : Prop :=
  a < n ∧ ∀ b, ¬R a b

/-- Matched names stand for the same. -/
def Agree {V : Type*} (R : Nat → Nat → Prop) (heap heap' : Nat → V) : Prop :=
  ∀ a b, R a b → heap' b = heap a

variable {R : Nat → Nat → Prop} {n n' : Nat}

theorem pairing_extend (h : Pairing R n n') :
    Pairing (Pairing.extend R n n') (n + 1) (n' + 1) where
  bound := by
    rintro a b (hab | ⟨rfl, rfl⟩)
    · have hbound := h.bound a b hab
      omega
    · omega
  one := by
    -- An old name is below the counter, so it is not the new one.
    rintro a b c d (hab | ⟨rfl, rfl⟩) (hcd | ⟨rfl, rfl⟩)
    · exact h.one a b c d hab hcd
    · have hbound := h.bound a b hab
      omega
    · have hbound := h.bound c d hcd
      omega
    · omega

theorem pairing_left (h : Pairing R n n') : Pairing R (n + 1) n' where
  bound := fun a b hab => ⟨Nat.lt_succ_of_lt (h.bound a b hab).1, (h.bound a b hab).2⟩
  one := h.one

theorem stray_extend (a : Nat) (h : Stray R n a) : Stray (Pairing.extend R n n') (n + 1) a := by
  have hlt := h.1
  refine ⟨by omega, ?_⟩
  rintro b (hab | ⟨rfl, -⟩)
  · exact h.2 b hab
  · omega

theorem stray_left (a : Nat) (h : Stray R n a) : Stray R (n + 1) a :=
  ⟨Nat.lt_succ_of_lt h.1, h.2⟩

/-- The next name of the first side is matched with none yet. -/
theorem stray_new (h : Pairing R n n') : Stray R (n + 1) n := by
  refine ⟨Nat.lt_succ_self n, fun b hb => ?_⟩
  have hbound := h.bound n b hb
  omega

section Heaps

variable {V : Type*} {heap heap' : Nat → V}

theorem agree_update (hpair : Pairing R n n') (h : Agree R heap heap') (a b : Nat) (v : V)
    (hab : R a b) : Agree R (Function.update heap a v) (Function.update heap' b v) := by
  intro c d hcd
  have hone := hpair.one a b c d hab hcd
  by_cases hc : a = c
  · rw [← hc, ← hone.mp hc, Function.update_self, Function.update_self]
  · have hd : b ≠ d := fun hd => hc (hone.mpr hd)
    rw [Function.update_of_ne (Ne.symm hc), Function.update_of_ne (Ne.symm hd)]
    exact h c d hcd

theorem agree_stray (h : Agree R heap heap') (a : Nat) (v : V) (ha : ∀ b, ¬R a b) :
    Agree R (Function.update heap a v) heap' := by
  intro c d hcd
  have hne : c ≠ a := by
    rintro rfl
    exact ha d hcd
  rw [Function.update_of_ne hne]
  exact h c d hcd

theorem agree_extend (hpair : Pairing R n n') (h : Agree R heap heap') (v : V) :
    Agree (Pairing.extend R n n') (Function.update heap n v) (Function.update heap' n' v) := by
  rintro c d (hcd | ⟨rfl, rfl⟩)
  · have hbound := hpair.bound c d hcd
    rw [Function.update_of_ne (by omega), Function.update_of_ne (by omega)]
    exact h c d hcd
  · rw [Function.update_self, Function.update_self]

end Heaps
