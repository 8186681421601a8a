import Mathlib.Data.Fintype.EquivFin
import Mathlib.Data.List.AList

/-!
# Finite Tables

Finite maps with the operations a program makes on a hash map: look up, insert,
remove, keep the entries that satisfy a test, update every value, and count the
entries that satisfy a test.

The representation is Mathlib's association list without repeated keys, at a
constant family, so that a lookup has a plain type. Mathlib supplies lookup,
insertion and removal; what is added here is the filter, the pointwise update
and the count, and how each of them meets the first three. A count is what an
accounting invariant is stated with, and `count_set` and `count_erase` are the
two equations that carry it across an update: every change of a table is a
removal of the old entry, if there was one, and an insertion of the new one.

## Main definitions

* `Table`: A finite map.
* `get?`: The value at a key.
* `set`: Insertion, replacing the value already there.
* `erase`: Removal of a key.
* `retain`: The entries that pass a test.
* `mapValues`: Every value updated.
* `values`: The values, in the order of the entries.
* `count`: How many entries pass a test.

## Theorems

* `get?_set`, `get?_erase`, `get?_mapValues`, `get?_retain_eq_some`: What each
  update leaves at a key.
* `mem_entries_iff`, `mem_values_iff`: The entries are what lookup finds.
* `exists_get?_none`, `exists_get?_none_both`: With infinitely many keys, one is free.
* `count_set`: An insertion counts the new entry on top of the others.
* `count_erase`: A removal takes the removed entry off the count.
* `count_retain`: Counting what a filter kept.
* `count_congr`: Tests that agree on the entries count the same.
* `count_eq_zero`: Nothing passes the test.
* `count_ext`: Tables with the same lookups have the same counts.
* `values_filter`: Where a value tells its key, the values of one key.
-/

/-- A finite map from `K` to `V`. -/
structure Table (K V : Type*) where
  toAList : AList (fun _ : K => V)

namespace Table

variable {K V : Type*}

/-- The table without entries. -/
def empty : Table K V := ⟨∅⟩

/-- The keys with their values. -/
def entries (m : Table K V) : List (Sigma fun _ : K => V) := m.toAList.entries

/-- The values, in the order of the entries. -/
def values (m : Table K V) : List V := m.entries.map (fun e => e.2)

/-- How many entries pass the test. -/
def count (m : Table K V) (p : K → V → Bool) : Nat := m.entries.countP (fun e => p e.1 e.2)

/-- How many entries there are. -/
def size (m : Table K V) : Nat := m.entries.length

/-- The entries that pass the test. -/
def retain (m : Table K V) (q : K → V → Bool) : Table K V :=
  ⟨⟨m.entries.filter (fun e => q e.1 e.2),
    (List.filter_sublist.map Sigma.fst).nodup m.toAList.nodupKeys⟩⟩

/-- A table of images, key by key. -/
def map {W : Type*} (m : Table K V) (f : V → W) : Table K W :=
  ⟨⟨m.entries.map (fun e => ⟨e.1, f e.2⟩), by
    have h : (m.entries.map (fun e => (⟨e.1, f e.2⟩ : Sigma fun _ : K => W))).keys
        = m.entries.keys := by
      simp only [List.keys, List.map_map, Function.comp_def]
    unfold List.NodupKeys
    rw [h]
    exact m.toAList.nodupKeys⟩⟩

/-- Every value replaced by its image. -/
def mapValues (m : Table K V) (f : V → V) : Table K V := m.map f

@[simp]
theorem count_empty (p : K → V → Bool) : (empty : Table K V).count p = 0 := rfl

theorem count_retain (m : Table K V) (p q : K → V → Bool) :
    (m.retain q).count p = m.count (fun k v => p k v && q k v) := by
  simp only [count, retain, entries, List.countP_filter]

variable [DecidableEq K]

/-- The value at a key. -/
def get? (m : Table K V) (k : K) : Option V := m.toAList.lookup k

/-- Insertion: the key now has this value, whatever it had before. -/
def set (m : Table K V) (k : K) (v : V) : Table K V := ⟨m.toAList.insert k v⟩

/-- Removal of a key. -/
def erase (m : Table K V) (k : K) : Table K V := ⟨m.toAList.erase k⟩

@[simp]
theorem get?_empty (k : K) : (empty : Table K V).get? k = none :=
  AList.lookup_empty k

theorem mem_entries_iff (m : Table K V) (k : K) (v : V) :
    (⟨k, v⟩ : Sigma fun _ : K => V) ∈ m.entries ↔ m.get? k = some v :=
  (AList.mem_lookup_iff).symm

theorem mem_values_iff (m : Table K V) (v : V) : v ∈ m.values ↔ ∃ k, m.get? k = some v := by
  simp only [values, List.mem_map]
  constructor
  · rintro ⟨⟨k, u⟩, hmem, rfl⟩
    exact ⟨k, (m.mem_entries_iff k u).mp hmem⟩
  · rintro ⟨k, hk⟩
    exact ⟨⟨k, v⟩, (m.mem_entries_iff k v).mpr hk, rfl⟩

/-- Some key is free in two tables. -/
theorem exists_get?_none_both {W : Type*} [Infinite K] (m : Table K V) (m' : Table K W) :
    ∃ k, m.get? k = none ∧ m'.get? k = none := by
  rcases Infinite.exists_notMem_finset (m.toAList.keys ++ m'.toAList.keys).toFinset with ⟨k, hk⟩
  rw [List.mem_toFinset, List.mem_append, not_or] at hk
  exact ⟨k, AList.lookup_eq_none.mpr hk.1, AList.lookup_eq_none.mpr hk.2⟩

/-- Some key is free. -/
theorem exists_get?_none [Infinite K] (m : Table K V) : ∃ k, m.get? k = none := by
  rcases exists_get?_none_both m m with ⟨k, hk, _⟩
  exact ⟨k, hk⟩

@[simp]
theorem get?_set_self (m : Table K V) (k : K) (v : V) : (m.set k v).get? k = some v :=
  AList.lookup_insert m.toAList

theorem get?_set_ne (m : Table K V) (k j : K) (v : V) (h : j ≠ k) :
    (m.set k v).get? j = m.get? j :=
  AList.lookup_insert_ne h

theorem get?_set (m : Table K V) (k j : K) (v : V) :
    (m.set k v).get? j = if j = k then some v else m.get? j := by
  by_cases h : j = k
  · rw [if_pos h, h, get?_set_self]
  · rw [if_neg h, get?_set_ne m k j v h]

theorem get?_set_eq_some (m : Table K V) (k j : K) (v u : V) :
    (m.set k v).get? j = some u ↔ (j = k ∧ v = u) ∨ (j ≠ k ∧ m.get? j = some u) := by
  rw [get?_set]
  by_cases h : j = k
  · rw [if_pos h, Option.some.injEq]
    exact ⟨fun huv => Or.inl ⟨h, huv⟩, fun hc => (hc.resolve_right (fun hc => hc.1 h)).2⟩
  · rw [if_neg h]
    exact ⟨fun hget => Or.inr ⟨h, hget⟩, fun hc => (hc.resolve_left (fun hc => h hc.1)).2⟩

@[simp]
theorem get?_erase_self (m : Table K V) (k : K) : (m.erase k).get? k = none :=
  AList.lookup_erase k m.toAList

theorem get?_erase_ne (m : Table K V) (k j : K) (h : j ≠ k) : (m.erase k).get? j = m.get? j :=
  AList.lookup_erase_ne h

theorem get?_erase (m : Table K V) (k j : K) :
    (m.erase k).get? j = if j = k then none else m.get? j := by
  by_cases h : j = k
  · rw [if_pos h, h, get?_erase_self]
  · rw [if_neg h, get?_erase_ne m k j h]

theorem get?_retain_eq_some (m : Table K V) (q : K → V → Bool) (k : K) (v : V) :
    (m.retain q).get? k = some v ↔ m.get? k = some v ∧ q k v = true := by
  rw [← mem_entries_iff, ← mem_entries_iff]
  exact List.mem_filter

theorem get?_map_eq_some {W : Type*} (m : Table K V) (f : V → W) (k : K) (w : W) :
    (m.map f).get? k = some w ↔ ∃ u, m.get? k = some u ∧ f u = w := by
  rw [← mem_entries_iff]
  constructor
  · intro h
    rcases List.mem_map.mp h with ⟨⟨j, u⟩, hmem, heq⟩
    simp only [Sigma.mk.injEq, heq_eq_eq] at heq
    rcases heq with ⟨rfl, rfl⟩
    exact ⟨u, (m.mem_entries_iff j u).mp hmem, rfl⟩
  · rintro ⟨u, hu, rfl⟩
    exact List.mem_map.mpr ⟨⟨k, u⟩, (m.mem_entries_iff k u).mpr hu, rfl⟩

theorem get?_map {W : Type*} (m : Table K V) (f : V → W) (k : K) :
    (m.map f).get? k = (m.get? k).map f := by
  ext w
  rw [get?_map_eq_some, Option.map_eq_some_iff]

theorem get?_mapValues_eq_some (m : Table K V) (f : V → V) (k : K) (v : V) :
    (m.mapValues f).get? k = some v ↔ ∃ u, m.get? k = some u ∧ f u = v :=
  get?_map_eq_some m f k v

theorem get?_mapValues (m : Table K V) (f : V → V) (k : K) :
    (m.mapValues f).get? k = (m.get? k).map f := get?_map m f k

/-- Removing a key that has no entry changes nothing. -/
theorem erase_of_get?_none (m : Table K V) (k : K) (h : m.get? k = none) : m.erase k = m := by
  have hk : k ∉ m.toAList.entries.keys := by
    rw [← AList.keys, ← AList.mem_keys, ← AList.lookup_eq_none]
    exact h
  have hentries : (m.toAList.erase k).entries = m.toAList.entries := List.kerase_of_notMem_keys hk
  rcases m with ⟨l⟩
  exact congrArg Table.mk (AList.ext hentries)

theorem count_set (m : Table K V) (p : K → V → Bool) (k : K) (v : V) :
    (m.set k v).count p = (m.erase k).count p + (if p k v then 1 else 0) := by
  have hentries : (m.set k v).entries = ⟨k, v⟩ :: (m.erase k).entries :=
    AList.entries_insert
  rw [count, hentries, List.countP_cons]
  rfl

theorem count_erase (m : Table K V) (p : K → V → Bool) (k : K) (v : V)
    (h : m.get? k = some v) :
    m.count p = (m.erase k).count p + (if p k v then 1 else 0) := by
  have hmem : k ∈ m.toAList.entries.keys := by
    rw [← AList.keys, ← AList.mem_keys, ← AList.lookup_isSome]
    exact Option.isSome_of_eq_some h
  rcases List.exists_of_kerase hmem with ⟨u, l₁, l₂, _, hsplit, hrest⟩
  -- The entry taken out is the one lookup finds.
  have hu : u = v := by
    have : m.get? k = some u := by
      rw [← mem_entries_iff, entries, hsplit]
      exact List.mem_append_right _ List.mem_cons_self
    rw [h, Option.some.injEq] at this
    exact this.symm
  have herase : (m.erase k).entries = l₁ ++ l₂ := hrest
  rw [count, count, herase, entries, hsplit, List.countP_append, List.countP_append,
    List.countP_cons, hu]
  exact (Nat.add_assoc _ _ _).symm

/-- Replacing a value takes the old entry off the count and adds the new one. -/
theorem count_set_of_get? (m : Table K V) (p : K → V → Bool) (k : K) (v u : V)
    (h : m.get? k = some v) :
    (m.set k u).count p + (if p k v then 1 else 0) = m.count p + (if p k u then 1 else 0) := by
  rw [count_set, count_erase m p k v h]
  omega

/-- Inserting at a key that has no entry adds one to the count, or nothing. -/
theorem count_set_of_get?_none (m : Table K V) (p : K → V → Bool) (k : K) (v : V)
    (h : m.get? k = none) : (m.set k v).count p = m.count p + (if p k v then 1 else 0) := by
  rw [count_set, erase_of_get?_none m k h]

theorem count_congr (m : Table K V) (p q : K → V → Bool)
    (h : ∀ k v, m.get? k = some v → p k v = q k v) : m.count p = m.count q := by
  refine List.countP_congr (fun e he => ?_)
  rw [h e.1 e.2 ((m.mem_entries_iff e.1 e.2).mp he)]

theorem count_eq_zero (m : Table K V) (p : K → V → Bool) :
    m.count p = 0 ↔ ∀ k v, m.get? k = some v → p k v = false := by
  rw [count, List.countP_eq_zero]
  constructor
  · intro h k v hk
    exact Bool.eq_false_iff.mpr (h ⟨k, v⟩ ((m.mem_entries_iff k v).mpr hk))
  · intro h e he
    rw [h e.1 e.2 ((m.mem_entries_iff e.1 e.2).mp he)]
    exact Bool.false_ne_true

/-- Where two entries that count are the same one, there is at most one. -/
theorem count_le_one (m : Table K V) (p : K → V → Bool)
    (h : ∀ j k u v, m.get? j = some u → p j u = true → m.get? k = some v → p k v = true →
      j = k) : m.count p ≤ 1 := by
  by_cases hzero : m.count p = 0
  · omega
  · rw [count_eq_zero] at hzero
    push Not at hzero
    rcases hzero with ⟨k, v, hk, hp⟩
    rw [ne_eq, Bool.not_eq_false] at hp
    have hrest : (m.erase k).count p = 0 := by
      rw [count_eq_zero]
      intro j u hj
      rw [get?_erase] at hj
      by_cases hjk : j = k
      · rw [if_pos hjk] at hj
        exact absurd hj (by simp)
      · rw [if_neg hjk] at hj
        rw [← Bool.not_eq_true]
        exact fun hpj => hjk (h j k u v hj hpj hk hp)
    rw [count_erase m p k v hk, hrest, if_pos hp]

/-- Tables with the same lookups have the same counts. -/
theorem count_ext (m m' : Table K V) (p : K → V → Bool) (h : ∀ k, m'.get? k = m.get? k) :
    m'.count p = m.count p := by
  have hperm : m'.entries.Perm m.entries := by
    refine List.lookup_ext m'.toAList.nodupKeys m.toAList.nodupKeys fun k v => ?_
    have hk := h k
    unfold get? AList.lookup at hk
    unfold entries
    rw [hk]
  exact hperm.countP_eq _

/-- The entries of one key are what lookup finds. -/
theorem filter_entries (l : List (Sigma fun _ : K => V)) (h : l.NodupKeys) (k : K) :
    (l.filter (fun e => decide (e.1 = k))).map (fun e => e.2) = (List.dlookup k l).toList := by
  induction l with
  | nil => rfl
  | cons e l ih =>
      rcases e with ⟨j, v⟩
      rw [List.nodupKeys_cons] at h
      by_cases hj : j = k
      · subst hj
        have hrest : l.filter (fun e => decide (e.1 = j)) = [] := by
          refine List.filter_eq_nil_iff.mpr fun e he heq => ?_
          have hmem : e.1 ∈ l.keys := List.mem_map.mpr ⟨e, he, rfl⟩
          rw [of_decide_eq_true heq] at hmem
          exact h.1 hmem
        rw [List.dlookup_cons_eq, List.filter_cons_of_pos (by simp), hrest]
        rfl
      · rw [List.dlookup_cons_ne _ _ (fun hc => hj hc.symm),
          List.filter_cons_of_neg (by simpa using hj)]
        exact ih h.2

/-- Where every value tells its key, the values of one key are what lookup
    finds. -/
theorem values_filter (m : Table K V) (f : V → K) (h : ∀ k v, m.get? k = some v → f v = k)
    (k : K) : m.values.filter (fun v => decide (f v = k)) = (m.get? k).toList := by
  have hkeys : ∀ e ∈ m.entries, decide (f e.2 = k) = decide (e.1 = k) := by
    intro e he
    rw [h e.1 e.2 ((m.mem_entries_iff e.1 e.2).mp he)]
  have hfilter : m.values.filter (fun v => decide (f v = k))
      = (m.entries.filter (fun e => decide (e.1 = k))).map (fun e => e.2) := by
    rw [values, List.filter_map]
    exact congrArg (List.map _) (List.filter_congr hkeys)
  rw [hfilter, filter_entries m.entries m.toAList.nodupKeys k]
  rfl

end Table
