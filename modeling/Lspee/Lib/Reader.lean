import Mathlib.Data.List.Basic

/-!
# Incremental Readers

A reader takes its input one symbol at a time and gives a value when it has seen
enough; then it starts over with the next symbol. Its state is what it has taken
so far. It can fail, and it says what the end of the input means to it.

The input may arrive in pieces. `poll` takes all that has arrived, and stops
early only for a value. `readAll` is what the whole input holds. `readAll_poll`
connects the two: reading in pieces gives what reading at once does, as long as
the state is kept between the pieces.

An encoding of a value is a piece of input that the reader takes exactly
(`Encodes`); a sequence of encodings holds the sequence of values, and while a
reader is inside such a sequence its state is that of a proper part of one of
them.

## Main definitions

* `Fed`: What one symbol leads to.
* `Reader`: A reader.
* `poll`: Taking what has arrived.
* `readAll`: The values of an input.
* `Encodes`: An input that is one value.
* `Cut`: Where a sequence of pieces is cut.

## Theorems

* `poll_append`: Polling twice.
* `readAll_poll`: Reading on after a poll.
* `readAll_encoded`, `poll_encoded`: A sequence of encodings, and a part of it.
* `within_of_pending`: Where a reader is that waits.
* `cut_flatMap`: A cut is within a piece or behind all of them.
-/

/-- What one symbol leads to: another state, a value, or a failure. -/
inductive Fed (σ α : Type) where
  | more (s : σ)
  | done (v : α)
  | failed

/-- A reader of symbols `β` with states `σ` and values `α`. `finish` gives the
    values at the end of the input, at most one, or `none` when the input must
    not end there. -/
structure Reader (β σ α : Type) where
  start : σ
  feed : σ → β → Fed σ α
  finish : σ → Option (List α)

/-- What taking the input that has arrived leads to. -/
inductive ReadPoll (β σ α : Type) where
  | pending (s : σ)
  | ready (v : α) (rest : List β)
  | failed

namespace Reader

variable {β σ α : Type} (r : Reader β σ α)

/-- Take symbols until there is a value or no symbol is left. -/
def poll : σ → List β → ReadPoll β σ α
  | s, [] => .pending s
  | s, b :: input =>
    match r.feed s b with
    | .more s' => poll s' input
    | .done v => .ready v input
    | .failed => .failed

/-- The values the input holds, from a state on, or `none` when reading it
    fails. -/
def readAll : σ → List β → Option (List α)
  | s, [] => r.finish s
  | s, b :: input =>
    match r.feed s b with
    | .more s' => readAll s' input
    | .done v => (readAll r.start input).map (v :: ·)
    | .failed => none

/-- The input is one value: the reader takes all of it and no less. -/
def Encodes (input : List β) (v : α) : Prop :=
  r.poll r.start input = .ready v []

theorem poll_append (s : σ) (xs ys : List β) :
    r.poll s (xs ++ ys) = match r.poll s xs with
      | .pending s' => r.poll s' ys
      | .ready v rest => .ready v (rest ++ ys)
      | .failed => .failed := by
  induction xs generalizing s with
  | nil => rfl
  | cons b xs ih =>
      simp only [List.cons_append, poll]
      cases r.feed s b with
      | more s' => exact ih s'
      | done v => rfl
      | failed => rfl

theorem readAll_poll (s : σ) (xs ys : List β) :
    r.readAll s (xs ++ ys) = match r.poll s xs with
      | .pending s' => r.readAll s' ys
      | .ready v rest => (r.readAll r.start (rest ++ ys)).map (v :: ·)
      | .failed => none := by
  induction xs generalizing s with
  | nil => rfl
  | cons b xs ih =>
      simp only [List.cons_append, poll, readAll]
      cases r.feed s b with
      | more s' => exact ih s'
      | done v => rfl
      | failed => rfl

theorem poll_of_pending (s s' : σ) (xs ys : List β) (h : r.poll s xs = .pending s') :
    r.poll s (xs ++ ys) = r.poll s' ys := by
  rw [poll_append, h]

theorem readAll_of_pending (s s' : σ) (xs ys : List β) (h : r.poll s xs = .pending s') :
    r.readAll s (xs ++ ys) = r.readAll s' ys := by
  rw [readAll_poll, h]

theorem readAll_of_failed (s : σ) (xs ys : List β) (h : r.poll s xs = .failed) :
    r.readAll s (xs ++ ys) = none := by
  rw [readAll_poll, h]

section Sequences

variable {γ : Type} (enc : γ → List β) (val : γ → α)

/-- A sequence of encodings holds the sequence of values. -/
theorem readAll_encoded (items : List γ) (h : ∀ item ∈ items, r.Encodes (enc item) (val item))
    (hend : r.finish r.start = some []) :
    r.readAll r.start (items.flatMap enc) = some (items.map val) := by
  induction items with
  | nil => exact hend
  | cons item items ih =>
      have hfirst : r.poll r.start (enc item) = .ready (val item) [] :=
        h item List.mem_cons_self
      have hrest := ih (fun i hi => h i (List.mem_cons_of_mem _ hi))
      rw [List.flatMap_cons, readAll_poll, hfirst]
      simp only [List.nil_append, hrest, Option.map_some, List.map_cons]

/-- A part of a sequence of encodings: the reader waits, or it gives the first
    value and leaves what is behind the first encoding. -/
theorem poll_encoded (items : List γ) (taken rest : List β)
    (h : ∀ item ∈ items, r.Encodes (enc item) (val item))
    (hinput : taken ++ rest = items.flatMap enc) :
    (∃ s, r.poll r.start taken = .pending s) ∨
      ∃ item items' left, items = item :: items' ∧ r.poll r.start taken = .ready (val item) left ∧
        left ++ rest = items'.flatMap enc := by
  cases items with
  | nil =>
      rw [List.flatMap_nil, List.append_eq_nil_iff] at hinput
      rw [hinput.1]
      exact Or.inl ⟨r.start, rfl⟩
  | cons item items =>
      have hfirst : r.poll r.start (enc item) = .ready (val item) [] :=
        h item List.mem_cons_self
      have hall := r.poll_append r.start (enc item) (items.flatMap enc)
      rw [← List.flatMap_cons, ← hinput, r.poll_append r.start taken rest, hfirst] at hall
      cases htaken : r.poll r.start taken with
      | pending s => exact Or.inl ⟨s, rfl⟩
      | ready v left =>
          rw [htaken] at hall
          simp only [ReadPoll.ready.injEq, List.nil_append] at hall
          exact Or.inr ⟨item, items, left, rfl, by rw [hall.1], hall.2⟩
      | failed =>
          rw [htaken] at hall
          exact absurd hall (by simp)

/-- A reader that waits after a part of a sequence of encodings, the first one
    not yet read, is inside that first one. -/
theorem within_of_pending (items : List γ) (taken rest : List β) (s : σ)
    (h : ∀ item ∈ items, r.Encodes (enc item) (val item))
    (hinput : taken ++ rest = items.flatMap enc) (htaken : taken ≠ [])
    (hpending : r.poll r.start taken = .pending s) :
    ∃ item items' left, items = item :: items' ∧ taken ++ left = enc item ∧ left ≠ [] ∧
      rest = left ++ items'.flatMap enc := by
  cases items with
  | nil =>
      rw [List.flatMap_nil, List.append_eq_nil_iff] at hinput
      exact absurd hinput.1 htaken
  | cons item items =>
      have hfirst : r.poll r.start (enc item) = .ready (val item) [] :=
        h item List.mem_cons_self
      rw [List.flatMap_cons] at hinput
      rcases List.append_eq_append_iff.mp hinput with ⟨left, hpiece, hrest⟩ | ⟨more, htake, _⟩
      · refine ⟨item, items, left, rfl, hpiece.symm, ?_, hrest⟩
        -- Having taken the whole encoding, the reader would not wait.
        rintro rfl
        rw [List.append_nil] at hpiece
        rw [hpiece, hpending] at hfirst
        exact absurd hfirst (by simp)
      · rw [htake, poll_append, hfirst] at hpending
        exact absurd hpending (by simp)

end Sequences

end Reader

/-- Where a sequence of pieces with a tail is cut: within one of the pieces, or
    behind all of them. -/
inductive Cut {γ β : Type} (f : γ → List β) (items : List γ) (tail taken left : List β) : Prop
  | within (before : List γ) (item : γ) (after : List γ) (a b : List β)
      (hitems : items = before ++ item :: after) (htaken : taken = before.flatMap f ++ a)
      (hleft : left = b ++ (after.flatMap f ++ tail)) (hpiece : a ++ b = f item) (hb : b ≠ [])
  | behind (more : List β) (htaken : taken = items.flatMap f ++ more) (htail : tail = more ++ left)

theorem cut_flatMap {γ β : Type} (f : γ → List β) (items : List γ) (tail taken left : List β)
    (h : taken ++ left = items.flatMap f ++ tail) : Cut f items tail taken left := by
  induction items generalizing taken with
  | nil => exact .behind taken rfl h.symm
  | cons item items ih =>
      -- The cut is behind the first piece.
      have hrest : ∀ more, taken = f item ++ more → more ++ left = items.flatMap f ++ tail →
          Cut f (item :: items) tail taken left := by
        intro more htaken hover
        cases ih more hover with
        | within before item' after a b hitems hcut hleft hpiece hb =>
            refine .within (item :: before) item' after a b ?_ ?_ hleft hpiece hb
            · rw [hitems, List.cons_append]
            · rw [htaken, hcut, List.flatMap_cons, List.append_assoc]
        | behind z hcut htail =>
            refine .behind z ?_ htail
            rw [htaken, hcut, List.flatMap_cons, List.append_assoc]
      rw [List.flatMap_cons, List.append_assoc] at h
      rcases List.append_eq_append_iff.mp h with ⟨b, hitem, hleft⟩ | ⟨more, htaken, hover⟩
      · by_cases hb : b = []
        · rw [hb, List.append_nil] at hitem
          rw [hb, List.nil_append] at hleft
          exact hrest [] (by rw [hitem, List.append_nil]) hleft
        · exact .within [] item items taken b rfl rfl hleft hitem.symm hb
      · exact hrest more htaken hover.symm
