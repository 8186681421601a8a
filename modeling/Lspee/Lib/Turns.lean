import Mathlib.Data.List.Induction

/-!
# Turns at a Resource

A resource that its users take and give back, known by the list of what they
have done so far. Two things can be asked of the list: that it alternates,
whoever takes and whoever gives (`Alternates`), and that every user gives back
what it has taken before the next one takes. `holder` answers the second by going
through the list with the one who has the resource, and fails at the first turn
that is out of order.

The second is the stronger one. It is what a lock gives; a resource that only
looks at what is done to it sees the first. Users that take the resource once
each have it from their take to their give (`Held`), and where nobody takes what
another has, and nobody gives what he has not, both hold (`inTurn_take`,
`inTurn_give`). Where the resource is held, taking it once more breaks both
(`not_alternates_of_held`).

## Main definitions

* `Turn`: The resource is taken, or given back.
* `toggle`, `Alternates`: The resource is taken and given back by turns.
* `next`, `holder`: Who has it.
* `Held`: A user has taken it and not given it back.
* `InTurn`: The users keep out while another has it.

## Theorems

* `alternates_of_append`: What comes first alternates too.
* `inTurn_take`, `inTurn_give`: Users that keep out.
* `alternates_of_inTurn`: They alternate.
* `not_alternates_of_held`: Others do not.
* `nothing_after`: While a user has the resource, nothing else happens.
-/

namespace Turns

/-- A user takes the resource, or gives it back. -/
inductive Turn (α : Type*) where
  | take (owner : α)
  | give (owner : α)
deriving DecidableEq

variable {α : Type*}

def Turn.owner : Turn α → α
  | take a => a
  | give a => a

/-- Whether the resource is taken, after one more turn. -/
def toggle : Option Bool → Turn α → Option Bool
  | some false, .take _ => some true
  | some true, .give _ => some false
  | _, _ => none

/-- The resource is taken and given back by turns, and taken first. -/
def Alternates (ts : List (Turn α)) : Prop := (ts.foldl toggle (some false)).isSome = true

instance (ts : List (Turn α)) : Decidable (Alternates ts) := inferInstanceAs (Decidable (_ = _))

/-- The user has taken the resource and not given it back. -/
def Held (ts : List (Turn α)) (a : α) : Prop := .take a ∈ ts ∧ .give a ∉ ts

theorem foldl_toggle_none (ts : List (Turn α)) : ts.foldl toggle none = none := by
  induction ts with
  | nil => rfl
  | cons t ts ih => exact ih

/-- What comes first alternates too. -/
theorem alternates_of_append (ts us : List (Turn α)) (h : Alternates (ts ++ us)) :
    Alternates ts := by
  unfold Alternates at h ⊢
  rw [List.foldl_append] at h
  cases htaken : ts.foldl toggle (some false) with
  | none =>
      rw [htaken, foldl_toggle_none] at h
      exact absurd h (by simp)
  | some taken => rfl

variable [DecidableEq α]

instance (ts : List (Turn α)) (a : α) : Decidable (Held ts a) :=
  inferInstanceAs (Decidable (_ ∧ _))

/-- Who has the resource, after one more turn. -/
def next : Option (Option α) → Turn α → Option (Option α)
  | some none, .take a => some (some a)
  | some (some b), .give a => if a = b then some none else none
  | _, _ => none

/-- Who has the resource, unless a turn was out of order. -/
def holder (ts : List (Turn α)) : Option (Option α) := ts.foldl next (some none)

/-- Every turn was in order, and whoever has the resource has taken it and not
    given it back. -/
def InTurn (ts : List (Turn α)) : Prop :=
  ∃ o, holder ts = some o ∧ ∀ a, o = some a ↔ Held ts a

theorem foldl_next_none (ts : List (Turn α)) : ts.foldl next none = none := by
  induction ts with
  | nil => rfl
  | cons t ts ih => exact ih

theorem holder_concat (ts : List (Turn α)) (t : Turn α) :
    holder (ts ++ [t]) = next (holder ts) t := by
  rw [holder, List.foldl_append]
  rfl

/-- The last turn was in order, and so was what came before. -/
theorem exists_of_holder_concat (ts : List (Turn α)) (t : Turn α) (o : Option α)
    (h : holder (ts ++ [t]) = some o) :
    holder ts = some none ∧ (∃ a, t = .take a ∧ o = some a) ∨
      ∃ a, holder ts = some (some a) ∧ t = .give a ∧ o = none := by
  rw [holder_concat] at h
  cases hts : holder ts with
  | none =>
      rw [hts] at h
      exact absurd h (by simp [next])
  | some before =>
      rw [hts] at h
      cases before with
      | none =>
          cases t with
          | take a => exact Or.inl ⟨rfl, a, rfl, (Option.some.inj h).symm⟩
          | give a => exact absurd h (by simp [next])
      | some b =>
          cases t with
          | take a => exact absurd h (by simp [next])
          | give a =>
              simp only [next, Option.ite_none_right_eq_some, Option.some.injEq] at h
              exact Or.inr ⟨b, rfl, by rw [h.1], h.2.symm⟩

/-- Users that keep out while another has the resource take it by turns. -/
theorem toggles_of_holder (ts : List (Turn α)) (o : Option α) (h : holder ts = some o) :
    ts.foldl toggle (some false) = some o.isSome := by
  induction ts using List.reverseRecOn generalizing o with
  | nil =>
      rw [← Option.some.inj h]
      rfl
  | append_singleton ts t ih =>
      rw [List.foldl_append]
      rcases exists_of_holder_concat ts t o h with ⟨hts, a, ht, ho⟩ | ⟨a, hts, ht, ho⟩
      · rw [ih none hts, ht, ho]
        rfl
      · rw [ih (some a) hts, ht, ho]
        rfl

theorem alternates_of_inTurn (ts : List (Turn α)) (h : InTurn ts) : Alternates ts := by
  rcases h with ⟨o, ho, _⟩
  rw [Alternates, toggles_of_holder ts o ho]
  rfl

theorem inTurn_nil : InTurn ([] : List (Turn α)) :=
  ⟨none, rfl, fun _ => ⟨fun h => absurd h (by simp), fun h => absurd h.1 List.not_mem_nil⟩⟩

/-- A user takes what nobody has. -/
theorem inTurn_take (ts : List (Turn α)) (a : α) (h : InTurn ts) (hfree : ∀ b, ¬Held ts b)
    (hgive : .give a ∉ ts) : InTurn (ts ++ [.take a]) := by
  rcases h with ⟨o, ho, hheld⟩
  have hnone : o = none := by
    cases o with
    | none => rfl
    | some b => exact absurd ((hheld b).mp rfl) (hfree b)
  refine ⟨some a, by rw [holder_concat, ho, hnone]; rfl, fun b => ?_⟩
  constructor
  · intro hb
    rw [← Option.some.inj hb]
    refine ⟨List.mem_append_right _ List.mem_cons_self, fun hmem => ?_⟩
    rcases List.mem_append.mp hmem with hmem | hmem
    · exact hgive hmem
    · exact absurd (List.mem_singleton.mp hmem) (by simp)
  · rintro ⟨htake, hnot⟩
    rcases List.mem_append.mp htake with htake | htake
    · exact absurd ⟨htake, fun hmem => hnot (List.mem_append_left _ hmem)⟩ (hfree b)
    · exact congrArg some (Turn.take.inj (List.mem_singleton.mp htake)).symm

/-- A user gives back what it has. -/
theorem inTurn_give (ts : List (Turn α)) (a : α) (h : InTurn ts) (ha : Held ts a) :
    InTurn (ts ++ [.give a]) := by
  rcases h with ⟨o, ho, hheld⟩
  have hsome : o = some a := (hheld a).mpr ha
  refine ⟨none, by rw [holder_concat, ho, hsome]; exact if_pos rfl, fun b => ?_⟩
  refine ⟨fun hb => absurd hb (by simp), ?_⟩
  rintro ⟨htake, hnot⟩
  have hold : Held ts b := by
    refine ⟨?_, fun hmem => hnot (List.mem_append_left _ hmem)⟩
    rcases List.mem_append.mp htake with htake | htake
    · exact htake
    · exact absurd (List.mem_singleton.mp htake) (by simp)
  -- Only one user has it, and that one has given it back.
  have heq : some a = some b := hsome.symm.trans ((hheld b).mpr hold)
  rw [← Option.some.inj heq] at hnot
  exact absurd (List.mem_append_right _ List.mem_cons_self) hnot

/-- Who takes what another has breaks the alternation. -/
theorem not_alternates_of_held (ts : List (Turn α)) (a b : α) (h : InTurn ts) (ha : Held ts a) :
    ¬Alternates (ts ++ [.take b]) := by
  rcases h with ⟨o, ho, hheld⟩
  rw [(hheld a).mpr ha] at ho
  rw [Alternates, List.foldl_append, toggles_of_holder ts (some a) ho]
  simp [toggle]

/-- While a user has the resource, nobody takes it or gives it back. -/
theorem nothing_after (ts us : List (Turn α)) (a : α) (h : InTurn (ts ++ .take a :: us))
    (ha : .give a ∉ us) : us = [] := by
  rcases h with ⟨o, ho, _⟩
  rw [← List.singleton_append, ← List.append_assoc, holder, List.foldl_append] at ho
  cases us with
  | nil => rfl
  | cons t us =>
      rw [List.foldl_cons] at ho
      cases hbefore : (ts ++ [Turn.take a]).foldl next (some none) with
      | none =>
          rw [hbefore] at ho
          exact absurd ho (by simp [next, foldl_next_none])
      | some o' =>
          rcases exists_of_holder_concat ts _ o' hbefore with ⟨_, b, hb, ho'⟩ | ⟨_, _, hb, _⟩
          · rw [hbefore, ho', ← Turn.take.inj hb] at ho
            -- The next turn can only be the one that gives back.
            cases t with
            | take c => exact absurd ho (by simp [next, foldl_next_none])
            | give c =>
                by_cases hc : c = a
                · rw [hc] at ha
                  exact absurd List.mem_cons_self ha
                · simp only [next, if_neg hc, foldl_next_none, reduceCtorEq] at ho
          · exact absurd hb (by simp)

end Turns
