import Lspee.Lib.Table

/-!
# Layered Settings

Settings that come in layers, each of which sets some and leaves the others. The
later layer wins: what a setting is in the end is the last value given to it, or
what it was at the start.

A program computes this by going through the layers, and what it goes through is
a record with many settings, or a table with a record at each key. `foldl_getD`
says that a field which each layer overwrites or keeps ends as the last value it
was given. `get?_foldl_layOver` takes a table apart: an entry sees only the
layers with its key. The entries that a list of layers leaves in the table are
then in the order in which they were last written, and going through the same
list again does not change that order (`foldl_layOver_twice`).

## Main definitions

* `lastSet`: The last value that is set.
* `layOver`: A layer laid over the entry at its key.
* `requeue`: The order of the keys after a key was written.

## Theorems

* `lastSet_append`, `lastSet_eq_none_iff`: What the last value is.
* `foldl_getD`, `foldl_or`: What the layers leave in a field.
* `get?_foldl_layOver`, `isSome_foldl_layOver`, `foldl_layOver_field`: What they
  leave at a key.
* `foldl_layOver_twice`: The same layers once more.
-/

namespace Layers

variable {α β σ K V : Type*}

/-- The value of the last element that sets one. -/
def lastSet (f : α → Option β) (xs : List α) : Option β := (xs.filterMap f).getLast?

@[simp]
theorem lastSet_nil (f : α → Option β) : lastSet f [] = none := rfl

theorem lastSet_append (f : α → Option β) (xs ys : List α) :
    lastSet f (xs ++ ys) = (lastSet f ys).or (lastSet f xs) := by
  rw [lastSet, List.filterMap_append, List.getLast?_append]
  rfl

theorem lastSet_cons (f : α → Option β) (x : α) (xs : List α) :
    lastSet f (x :: xs) = (lastSet f xs).or (f x) := by
  have hone : lastSet f [x] = f x := by
    cases h : f x with
    | none => simp [lastSet, h]
    | some v => simp [lastSet, h]
  rw [← List.singleton_append, lastSet_append, hone]

theorem lastSet_eq_none_iff (f : α → Option β) (xs : List α) :
    lastSet f xs = none ↔ ∀ x ∈ xs, f x = none := by
  rw [lastSet, List.getLast?_eq_none_iff, List.filterMap_eq_nil_iff]

/-- A field that each layer overwrites or keeps. -/
theorem foldl_getD (step : σ → α → σ) (field : σ → β) (f : α → Option β)
    (hstep : ∀ s x, field (step s x) = (f x).getD (field s)) (xs : List α) (s : σ) :
    field (xs.foldl step s) = (lastSet f xs).getD (field s) := by
  induction xs generalizing s with
  | nil => rfl
  | cons x xs ih =>
      rw [List.foldl_cons, ih, hstep, lastSet_cons]
      cases lastSet f xs <;> rfl

/-- The same for a field that may be missing. -/
theorem foldl_or (step : σ → α → σ) (field : σ → Option β) (f : α → Option β)
    (hstep : ∀ s x, field (step s x) = (f x).or (field s)) (xs : List α) (s : σ) :
    field (xs.foldl step s) = (lastSet f xs).or (field s) := by
  induction xs generalizing s with
  | nil => rfl
  | cons x xs ih => rw [List.foldl_cons, ih, hstep, lastSet_cons, Option.or_assoc]

/-! ### Tables -/

section Keyed

variable [DecidableEq K] (key : α → K) (update : α → Option V → V)

/-- A layer laid over the entry at its key. -/
def layOver (m : Table K V) (x : α) : Table K V := m.set (key x) (update x (m.get? (key x)))

/-- An entry sees the layers with its key, in their order. -/
theorem get?_foldl_layOver (xs : List α) (m : Table K V) (k : K) :
    (xs.foldl (layOver key update) m).get? k =
      (xs.filter (fun x => key x = k)).foldl (fun v x => some (update x v)) (m.get? k) := by
  induction xs generalizing m with
  | nil => rfl
  | cons x xs ih =>
      rw [List.foldl_cons, ih]
      by_cases hx : key x = k
      · have hget : (layOver key update m x).get? k = some (update x (m.get? k)) := by
          rw [layOver, hx, Table.get?_set_self]
        rw [List.filter_cons_of_pos (by simpa using hx), List.foldl_cons, hget]
      · have hget : (layOver key update m x).get? k = m.get? k := by
          rw [layOver, Table.get?_set_ne _ _ _ _ (Ne.symm hx)]
        rw [List.filter_cons_of_neg (by simpa using hx), hget]

/-- The keys are those of the start and those of the layers. -/
theorem isSome_foldl_layOver (xs : List α) (m : Table K V) (k : K) :
    ((xs.foldl (layOver key update) m).get? k).isSome ↔
      (m.get? k).isSome ∨ ∃ x ∈ xs, key x = k := by
  induction xs generalizing m with
  | nil => simp
  | cons x xs ih =>
      rw [List.foldl_cons, ih, layOver, Table.get?_set]
      by_cases hx : k = key x
      · simp [hx]
      · simp [hx, Ne.symm hx]

/-- A field of an entry that each layer overwrites or keeps. -/
theorem foldl_layOver_field (field : V → β) (d : β) (f : α → Option β)
    (hupdate : ∀ x v, field (update x v) = (f x).getD (v.elim d field)) (xs : List α)
    (m : Table K V) (k : K) (v : V) (h : (xs.foldl (layOver key update) m).get? k = some v) :
    field v = (lastSet f (xs.filter (fun x => key x = k))).getD ((m.get? k).elim d field) := by
  rw [get?_foldl_layOver] at h
  have hfield := foldl_getD (fun v x => some (update x v)) (fun v : Option V => v.elim d field) f
    (fun v x => hupdate x v) (xs.filter (fun x => key x = k)) (m.get? k)
  rw [h] at hfield
  exact hfield

/-! ### The same layers once more -/

/-- A key that is written goes to the front. -/
def requeue (ks : List K) (k : K) : List K := k :: ks.erase k

theorem keys_foldl_layOver (xs : List α) (m : Table K V) :
    (xs.foldl (layOver key update) m).toAList.keys = (xs.map key).foldl requeue m.toAList.keys := by
  induction xs generalizing m with
  | nil => rfl
  | cons x xs ih =>
      rw [List.foldl_cons, ih, List.map_cons, List.foldl_cons]
      congr 1
      exact AList.keys_insert m.toAList

theorem requeue_nodup (ks : List K) (k : K) (h : ks.Nodup) : (requeue ks k).Nodup :=
  List.nodup_cons.mpr ⟨h.not_mem_erase, h.erase k⟩

/-- Taking out a key that is not asked for changes nothing. -/
theorem filter_erase (ks js : List K) (k : K) (hk : k ∈ js) :
    (ks.erase k).filter (· ∉ js) = ks.filter (· ∉ js) := by
  induction ks with
  | nil => rfl
  | cons a ks ih =>
      by_cases ha : a = k
      · rw [ha, List.erase_cons_head, List.filter_cons_of_neg (by simpa using hk)]
      · rw [List.erase_cons_tail (by simpa using ha)]
        by_cases hmem : a ∈ js
        · rw [List.filter_cons_of_neg (by simpa using hmem),
            List.filter_cons_of_neg (by simpa using hmem), ih]
        · rw [List.filter_cons_of_pos (by simpa using hmem),
            List.filter_cons_of_pos (by simpa using hmem), ih]

/-- Where the written keys stood before does not matter. The induction is on the
    keys to be written. -/
theorem foldl_requeue_congr (js ks ks' : List K) (hks : ks.Nodup) (hks' : ks'.Nodup)
    (h : ks.filter (· ∉ js) = ks'.filter (· ∉ js)) :
    js.foldl requeue ks = js.foldl requeue ks' := by
  induction js generalizing ks ks' with
  | nil => simpa using h
  | cons j js ih =>
      refine ih (requeue ks j) (requeue ks' j) (requeue_nodup ks j hks)
        (requeue_nodup ks' j hks') ?_
      -- The rest is the same whether or not the key is written again.
      have hrest : ∀ ls : List K, ls.Nodup →
          (ls.erase j).filter (· ∉ js) = ls.filter (· ∉ j :: js) := by
        intro ls hls
        rw [hls.erase_eq_filter, List.filter_filter]
        refine List.filter_congr fun a _ => ?_
        by_cases haj : a = j <;> simp [haj]
      by_cases hj : j ∈ js
      · rw [requeue, requeue, List.filter_cons_of_neg (by simpa using hj),
          List.filter_cons_of_neg (by simpa using hj), hrest ks hks, hrest ks' hks', h]
      · rw [requeue, requeue, List.filter_cons_of_pos (by simpa using hj),
          List.filter_cons_of_pos (by simpa using hj), hrest ks hks, hrest ks' hks', h]

theorem foldl_requeue_nodup (js ks : List K) (hks : ks.Nodup) :
    (js.foldl requeue ks).Nodup := by
  induction js generalizing ks with
  | nil => exact hks
  | cons j js ih => exact ih _ (requeue_nodup ks j hks)

/-- The other keys keep their order. -/
theorem filter_foldl_requeue (js ls ks : List K) (h : ∀ j ∈ js, j ∈ ls) :
    (js.foldl requeue ks).filter (· ∉ ls) = ks.filter (· ∉ ls) := by
  induction js generalizing ks with
  | nil => rfl
  | cons j js ih =>
      have hj := h j List.mem_cons_self
      rw [List.foldl_cons, ih _ fun k hk => h k (List.mem_cons_of_mem j hk), requeue,
        List.filter_cons_of_neg (by simpa using hj), filter_erase ks ls j hj]

/-- Tables with the same keys in the same order and the same lookups are equal. -/
theorem table_ext (m m' : Table K V) (hkeys : m.toAList.keys = m'.toAList.keys)
    (hget : ∀ k, m.get? k = m'.get? k) : m = m' := by
  have hentries : ∀ n : Table K V,
      n.toAList.entries = n.toAList.keys.filterMap (fun k => (n.get? k).map (Sigma.mk k)) := by
    intro n
    rw [AList.keys, List.keys, List.filterMap_map]
    have hsome : ∀ e ∈ n.toAList.entries,
        ((fun k => (n.get? k).map (Sigma.mk k)) ∘ Sigma.fst) e = some e := by
      intro e he
      have hk := (n.mem_entries_iff e.1 e.2).mp he
      simp only [Function.comp_apply, hk, Option.map_some]
    rw [List.filterMap_congr hsome, List.filterMap_some]
  rcases m with ⟨l⟩
  rcases m' with ⟨l'⟩
  refine congrArg Table.mk (AList.ext ?_)
  have h := hentries ⟨l⟩
  have h' := hentries ⟨l'⟩
  simp only [hget, hkeys] at h
  rw [h, h']

/-- Layers that change no lookup a second time change nothing a second time. -/
theorem foldl_layOver_twice (xs : List α) (m : Table K V)
    (h : ∀ k, (xs.foldl (layOver key update) (xs.foldl (layOver key update) m)).get? k =
      (xs.foldl (layOver key update) m).get? k) :
    xs.foldl (layOver key update) (xs.foldl (layOver key update) m) =
      xs.foldl (layOver key update) m := by
  refine table_ext _ _ ?_ h
  rw [keys_foldl_layOver key update xs (xs.foldl (layOver key update) m),
    keys_foldl_layOver key update xs m]
  have hnodup : m.toAList.keys.Nodup := m.toAList.keys_nodup
  exact foldl_requeue_congr _ _ _ (foldl_requeue_nodup _ _ hnodup) hnodup
    (filter_foldl_requeue _ _ _ fun _ hj => hj)

end Keyed

end Layers
