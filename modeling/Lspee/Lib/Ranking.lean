import Mathlib.Data.List.Pairwise
import Mathlib.Data.List.Sort

/-!
# Ranked Selection

Taking things in order of their rank until enough have been taken. A list is
put in order by a stable sort, so that of two things of equal rank the one that
came first stays first, and the shortest prefix is taken after which what is
left is acceptable.

Both halves are stated by what they achieve, not by how. Where no two things
have the same rank, the order does not depend on how the list came.

## Main definitions

* `StableOrder`: A list in order of rank, equals in the order they came.
* `ShortestPrefix`: The shortest prefix after which the rest meets a condition.

## Theorems

* `stableOrder_insertionSort`: Insertion sort puts a list in stable order.
* `StableOrder.eq_of_perm`: Without ties the order is the same for every
  permutation.
* `StableOrder.not_lt_of_append`: What was left does not rank before what was
  taken.
* `shortestPrefix_nil`, `shortestPrefix_cons`: The two steps of taking a prefix.
* `ShortestPrefix.not_of_taken`: Before each thing taken the condition failed.
-/

namespace Ranking

variable {α β : Type*}

section Order

variable [LinearOrder β] (rank : α → β)

/-- The second list holds what the first does, in order of rank, and keeps the
    order of those whose rank is the same. -/
structure StableOrder (xs ys : List α) : Prop where
  perm : ys.Perm xs
  ordered : ys.Pairwise (fun a b => rank a ≤ rank b)
  stable : ∀ a b, rank a = rank b → List.Sublist [a, b] xs → List.Sublist [a, b] ys

variable {rank}

theorem stableOrder_insertionSort (r : α → α → Prop) [DecidableRel r]
    (hr : ∀ a b, r a b ↔ rank a ≤ rank b) (xs : List α) :
    StableOrder rank xs (xs.insertionSort r) := by
  have htotal : Std.Total r := ⟨fun a b => by
    rw [hr, hr]
    exact le_total (rank a) (rank b)⟩
  have htrans : IsTrans α r := ⟨fun a b c hab hbc => by
    rw [hr] at hab hbc ⊢
    exact le_trans hab hbc⟩
  refine ⟨List.perm_insertionSort r xs, ?_, ?_⟩
  · have hsorted := List.pairwise_insertionSort r xs
    exact hsorted.imp fun hab => (hr _ _).mp hab
  · intro a b hab hsub
    have hrab : r a b := (hr a b).mpr (le_of_eq hab)
    exact List.pair_sublist_insertionSort hrab hsub

/-- Without ties there is one order, however the list came. -/
theorem StableOrder.eq_of_perm {xs xs' ys ys' : List α} (h : StableOrder rank xs ys)
    (h' : StableOrder rank xs' ys') (hperm : xs'.Perm xs)
    (hties : xs.Pairwise (fun a b => rank a ≠ rank b)) : ys = ys' := by
  have hperm' : ys.Perm ys' := h.perm.trans (hperm.symm.trans h'.perm.symm)
  have hinj : ys.Pairwise (fun a b => rank a ≠ rank b) :=
    hties.perm h.perm.symm (fun hab => hab.symm)
  have hsymm : Std.Symm (fun a b : α => rank a ≠ rank b) := ⟨fun _ _ hab => hab.symm⟩
  refine List.Perm.eq_of_pairwise ?_ h.ordered h'.ordered hperm'
  intro a b ha hb hab hba
  by_contra hne
  have hbys : b ∈ ys := hperm'.mem_iff.mpr hb
  exact hinj.forall ha hbys hne (le_antisymm hab hba)

/-- What was left does not rank strictly before what was taken. -/
theorem StableOrder.not_lt_of_append {xs taken left : List α}
    (h : StableOrder rank xs (taken ++ left)) (a b : α) (ha : a ∈ taken) (hb : b ∈ left) :
    ¬rank b < rank a := by
  have hpair := (List.pairwise_append.mp h.ordered).2.2 a ha b hb
  exact not_lt_of_ge hpair

end Order

section Prefix

/-- The shortest prefix after which what is left meets the condition. -/
structure ShortestPrefix (P : List α → Prop) (ys taken : List α) : Prop where
  enough : ∃ left, ys = taken ++ left ∧ P left
  shortest : ∀ taken' left', ys = taken' ++ left' → P left' → taken.length ≤ taken'.length

variable {P : List α → Prop}

theorem shortestPrefix_nil (ys : List α) (h : P ys) : ShortestPrefix P ys [] where
  enough := ⟨ys, rfl, h⟩
  shortest := fun _ _ _ _ => Nat.zero_le _

theorem shortestPrefix_cons (y : α) (ys taken : List α) (hy : ¬P (y :: ys))
    (h : ShortestPrefix P ys taken) : ShortestPrefix P (y :: ys) (y :: taken) where
  enough := by
    rcases h.enough with ⟨left, hys, hleft⟩
    exact ⟨left, by rw [hys, List.cons_append], hleft⟩
  shortest := by
    intro taken' left' hsplit hleft'
    cases taken' with
    | nil =>
        rw [List.nil_append] at hsplit
        rw [← hsplit] at hleft'
        exact absurd hleft' hy
    | cons z taken' =>
        rw [List.cons_append] at hsplit
        have htail := h.shortest taken' left' (List.cons.inj hsplit).2 hleft'
        simp only [List.length_cons]
        omega

/-- Before each thing that was taken, the condition did not yet hold. -/
theorem ShortestPrefix.not_of_taken {ys taken earlier later : List α} {a : α}
    (h : ShortestPrefix P ys taken) (htaken : taken = earlier ++ a :: later) (left : List α)
    (hys : ys = earlier ++ left) : ¬P left := by
  intro hleft
  have hshort := h.shortest earlier left hys hleft
  rw [htaken, List.length_append, List.length_cons] at hshort
  omega

end Prefix

end Ranking
