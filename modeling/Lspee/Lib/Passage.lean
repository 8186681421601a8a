import Mathlib.Data.List.Infix

/-!
# What Comes Through

Words for what comes out of a way that may lose things and that others use as well.

A way that loses things keeps the order of the others, so what has come through is a
sublist of what went in. Whether anything was lost is a proposition that is settled
beforehand, such as that every step of a run has kept a condition: if nothing was,
what is on the way and what has come through are together all that went in (`Whole`),
and what has come through is the first part of it (`Part`). Both go on when more goes
in at the end, `Whole` survives a loss, and `Part` what is cut off at the end.

What comes from two sides and is written down as it comes is an interleaving of the
two (`Interleaved`). It grows at its end.

## Main definitions

* `Whole`, `Part`: All of a list, or its first part, up to losses.
* `Interleaved`: A list made from two.

## Theorems

* `whole_append`, `whole_lose`: More goes in, and something is lost.
* `part_of_whole`, `part_append`, `part_cut`: The first part.
-/

namespace Passage

variable {α : Type*}

/-- The first list is what is left of the second, and all of it if nothing was lost. -/
def Whole (exact : Prop) (xs ys : List α) : Prop := xs.Sublist ys ∧ (exact → xs = ys)

/-- The first list is what is left of a part of the second, and its first part if nothing
    was lost. -/
def Part (exact : Prop) (xs ys : List α) : Prop := xs.Sublist ys ∧ (exact → xs <+: ys)

/-- The third list is made from the first two, each in its order. -/
inductive Interleaved : List α → List α → List α → Prop where
  | nil : Interleaved [] [] []
  | left (xs ys zs : List α) (x : α) (h : Interleaved xs ys zs) :
      Interleaved (xs ++ [x]) ys (zs ++ [x])
  | right (xs ys zs : List α) (y : α) (h : Interleaved xs ys zs) :
      Interleaved xs (ys ++ [y]) (zs ++ [y])

variable {exact : Prop} {xs xs' ys zs : List α}

theorem whole_refl (xs : List α) : Whole exact xs xs := ⟨List.Sublist.refl xs, fun _ => rfl⟩

theorem whole_append (h : Whole exact xs ys) (zs : List α) :
    Whole exact (xs ++ zs) (ys ++ zs) :=
  ⟨h.1.append_right zs, fun hexact => by rw [h.2 hexact]⟩

theorem whole_lose (h : Whole exact xs ys) (hlost : xs'.Sublist xs) (hexact : ¬exact) :
    Whole exact xs' ys :=
  ⟨hlost.trans h.1, fun h => absurd h hexact⟩

theorem part_of_whole (h : Whole exact xs ys) (hcut : xs' <+: xs) : Part exact xs' ys :=
  ⟨hcut.sublist.trans h.1, fun hexact => h.2 hexact ▸ hcut⟩

theorem part_append (h : Part exact xs ys) (zs : List α) : Part exact xs (ys ++ zs) :=
  ⟨h.1.trans (List.sublist_append_left ys zs),
    fun hexact => (h.2 hexact).trans (List.prefix_append ys zs)⟩

theorem part_cut (h : Part exact xs ys) (hcut : xs' <+: xs) : Part exact xs' ys :=
  ⟨hcut.sublist.trans h.1, fun hexact => hcut.trans (h.2 hexact)⟩

/-- More of the first list, or nothing. -/
theorem interleaved_left (h : Interleaved xs ys zs) (x : Option α) :
    Interleaved (xs ++ x.toList) ys (zs ++ x.toList) := by
  cases x with
  | none =>
      rw [Option.toList_none, List.append_nil, List.append_nil]
      exact h
  | some x => exact .left xs ys zs x h

end Passage
