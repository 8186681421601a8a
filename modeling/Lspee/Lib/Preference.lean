import Mathlib.Order.Lattice
import Mathlib.Data.List.Basic

/-!
# The First Choice of a List

Candidates in ascending order, some of them good. The choice is the first good
one, or the first of all if none is good. It is the one of the highest standing,
and among equals the least (`choice_eq_some_iff`), so two lists make the same
choice if and only if no candidate overtakes the choice of the first in the second
(`choice_eq_iff`).

## Main definitions

* `choice`: The choice.
* `standing`: How a candidate stands in a list.
* `Overtakes`: One candidate comes before another.
* `Preferred`: A candidate that no other comes before.

## Theorems

* `find?_eq_some_iff_of_ascending`: The first good candidate is the least.
* `choice_eq_some_iff`, `choice_eq_none_iff`: The choice by standings.
* `choice_eq_iff`: When two lists make the same choice.
-/

namespace Lspee

namespace Preference

variable {α : Type*} [LinearOrder α]

/-- The first good candidate, or the first. -/
def choice (xs : List α) (good : α → Bool) : Option α := (xs.find? good).or xs.head?

/-- A candidate that is good stands higher than one that is not, and one that is there
    higher than one that is not. -/
def standing (xs : List α) (good : α → Bool) (a : α) : Nat :=
  if a ∈ xs then if good a then 2 else 1 else 0

/-- Of equal standing, the lesser comes first. -/
def Overtakes (s : α → Nat) (b a : α) : Prop := s a < s b ∨ s a = s b ∧ b < a

/-- A candidate that is there, and comes first. -/
def Preferred (s : α → Nat) (a : α) : Prop := 0 < s a ∧ ∀ b, ¬Overtakes s b a

theorem preferred_unique (s : α → Nat) (a b : α) (ha : Preferred s a) (hb : Preferred s b) :
    a = b := by
  have hab := ha.2 b
  have hba := hb.2 a
  unfold Overtakes at hab hba
  push Not at hab hba
  have hs : s a = s b := by omega
  exact le_antisymm (hab.2 hs) (hba.2 hs.symm)

/-- In ascending order the first that passes a test is the least. -/
theorem find?_eq_some_iff_of_ascending (xs : List α) (h : xs.Pairwise (· < ·)) (p : α → Bool)
    (a : α) : xs.find? p = some a ↔ a ∈ xs ∧ p a = true ∧ ∀ b ∈ xs, b < a → p b = false := by
  induction xs with
  | nil => simp
  | cons x xs ih =>
      rw [List.pairwise_cons] at h
      rcases hx : p x with _ | _
      · rw [List.find?_cons_of_neg (by simp [hx]), ih h.2]
        constructor
        · rintro ⟨hmem, ha, hleast⟩
          refine ⟨List.mem_cons_of_mem _ hmem, ha, fun b hb hlt => ?_⟩
          rcases List.mem_cons.mp hb with rfl | hb
          · exact hx
          · exact hleast b hb hlt
        · rintro ⟨hmem, ha, hleast⟩
          rcases List.mem_cons.mp hmem with rfl | hmem
          · rw [hx] at ha
            exact absurd ha (by decide)
          · exact ⟨hmem, ha, fun b hb hlt => hleast b (List.mem_cons_of_mem _ hb) hlt⟩
      · rw [List.find?_cons_of_pos hx, Option.some.injEq]
        constructor
        · rintro rfl
          refine ⟨List.mem_cons_self, hx, fun b hb hlt => ?_⟩
          rcases List.mem_cons.mp hb with rfl | hb
          · exact absurd hlt (lt_irrefl _)
          · exact absurd hlt (not_lt_of_gt (h.1 b hb))
        · rintro ⟨hmem, _, hleast⟩
          rcases List.mem_cons.mp hmem with rfl | hmem
          · rfl
          · have hfalse := hleast x List.mem_cons_self (h.1 a hmem)
            rw [hx] at hfalse
            exact absurd hfalse (by decide)

omit [LinearOrder α] in
theorem head?_eq_find? (xs : List α) : xs.head? = xs.find? (fun _ => true) := by
  cases xs <;> rfl

/-- The choice is the preferred candidate. -/
theorem choice_eq_some_iff (xs : List α) (h : xs.Pairwise (· < ·)) (good : α → Bool) (a : α) :
    choice xs good = some a ↔ Preferred (standing xs good) a := by
  -- It is enough that what is chosen is preferred, since only one candidate is.
  have hone : ∀ b, Preferred (standing xs good) b → choice xs good = some b →
      (choice xs good = some a ↔ Preferred (standing xs good) a) := by
    intro b hb hchoice
    rw [hchoice, Option.some.injEq]
    exact ⟨fun hab => hab ▸ hb, fun ha => preferred_unique _ b a hb ha⟩
  cases hfind : xs.find? good with
  | some b =>
      rcases (find?_eq_some_iff_of_ascending xs h good b).mp hfind with ⟨hmem, hgood, hleast⟩
      -- A good candidate stands highest, and the first of them is the least.
      have hb : standing xs good b = 2 := by rw [standing, if_pos hmem, if_pos hgood]
      refine hone b ⟨by omega, fun c hc => ?_⟩ (by rw [choice, hfind]; rfl)
      rw [Overtakes, hb] at hc
      by_cases hcmem : c ∈ xs
      · by_cases hcgood : good c = true
        · have hcstanding : standing xs good c = 2 := by
            rw [standing, if_pos hcmem, if_pos hcgood]
          rcases hc with hc | ⟨_, hlt⟩
          · omega
          · rw [hleast c hcmem hlt] at hcgood
            exact absurd hcgood (by decide)
        · have hcstanding : standing xs good c = 1 := by
            rw [standing, if_pos hcmem, if_neg hcgood]
          omega
      · have hcstanding : standing xs good c = 0 := if_neg hcmem
        omega
  | none =>
      -- No candidate is good, so all of them stand alike.
      have hbad := List.find?_eq_none.mp hfind
      cases hhead : xs.head? with
      | some b =>
          rw [head?_eq_find?] at hhead
          rcases (find?_eq_some_iff_of_ascending xs h _ b).mp hhead with ⟨hmem, _, hleast⟩
          have hb : standing xs good b = 1 := by rw [standing, if_pos hmem, if_neg (hbad b hmem)]
          refine hone b ⟨by omega, fun c hc => ?_⟩
            (by rw [choice, hfind, head?_eq_find?, hhead]; rfl)
          rw [Overtakes, hb] at hc
          by_cases hcmem : c ∈ xs
          · have hcstanding : standing xs good c = 1 := by
              rw [standing, if_pos hcmem, if_neg (hbad c hcmem)]
            rcases hc with hc | ⟨_, hlt⟩
            · omega
            · exact absurd (hleast c hcmem hlt) (by decide)
          · have hcstanding : standing xs good c = 0 := if_neg hcmem
            omega
      | none =>
          have hnil := List.head?_eq_none_iff.mp hhead
          refine iff_of_false (by rw [choice, hfind, hhead]; simp) ?_
          rintro ⟨hpos, _⟩
          rw [standing, hnil, if_neg (by simp)] at hpos
          omega

theorem choice_eq_none_iff (xs : List α) (good : α → Bool) :
    choice xs good = none ↔ ∀ a, standing xs good a = 0 := by
  have hnone : choice xs good = none ↔ xs = [] := by
    rw [choice, Option.or_eq_none_iff, List.head?_eq_none_iff]
    constructor
    · exact fun h => h.2
    · rintro rfl
      exact ⟨rfl, rfl⟩
  rw [hnone]
  constructor
  · rintro rfl a
    exact if_neg (by simp)
  · intro h
    refine List.eq_nil_iff_forall_not_mem.mpr fun a ha => ?_
    have hzero := h a
    rw [standing, if_pos ha] at hzero
    by_cases hgood : good a = true
    · rw [if_pos hgood] at hzero
      omega
    · rw [if_neg hgood] at hzero
      omega

/-- Two lists, the second with all of the first, make the same choice if and only if no
    candidate overtakes the choice of the first, and none comes where there was none. -/
theorem choice_eq_iff (xs ys : List α) (hxs : xs.Pairwise (· < ·)) (hys : ys.Pairwise (· < ·))
    (good good' : α → Bool) (hsub : ∀ a ∈ xs, a ∈ ys) :
    choice xs good = choice ys good' ↔
      (∀ a b, Preferred (standing xs good) a → ¬Overtakes (standing ys good') b a) ∧
        ((∀ a, standing xs good a = 0) → ∀ a, standing ys good' a = 0) := by
  cases hchoice : choice xs good with
  | none =>
      have hzero := (choice_eq_none_iff xs good).mp hchoice
      rw [eq_comm, choice_eq_none_iff]
      constructor
      · intro h
        refine ⟨fun a b ha => ?_, fun _ => h⟩
        have hpos := ha.1
        rw [hzero a] at hpos
        omega
      · rintro ⟨_, h⟩
        exact h hzero
  | some a =>
      have ha := (choice_eq_some_iff xs hxs good a).mp hchoice
      -- The choice of the first list is in the second as well.
      have hmem : a ∈ xs := by
        by_contra hnot
        have hpos := ha.1
        rw [standing, if_neg hnot] at hpos
        omega
      rw [eq_comm, choice_eq_some_iff ys hys]
      constructor
      · intro ha'
        refine ⟨fun c b hc => ?_, fun hzero => ?_⟩
        · rw [preferred_unique _ c a hc ha]
          exact ha'.2 b
        · have hpos := ha.1
          rw [hzero a] at hpos
          omega
      · rintro ⟨hnone, _⟩
        refine ⟨?_, fun b => hnone a b ha⟩
        rw [standing, if_pos (hsub a hmem)]
        by_cases hgood : good' a = true
        · rw [if_pos hgood]
          omega
        · rw [if_neg hgood]
          omega

end Preference

end Lspee
