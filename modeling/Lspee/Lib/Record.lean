import Mathlib.Data.List.Basic
import Mathlib.Data.List.Nodup

/-!
# Records as Lists of Fields

A record is written as a list of its fields, each under a name; a field that has
no value is left out. Reading one looks the names up.

## Main definitions

* `written`: The fields that are written.

## Theorems

* `lookup_written`: What a name is found to hold.
* `mapM_map`: Reading a list of values.
-/

namespace Record

variable {κ V α : Type}

/-- The fields that have a value. -/
def written (fields : List (κ × Option V)) : List (κ × V) :=
  fields.filterMap (fun field => field.2.map (fun v => (field.1, v)))

section Lookup

variable [BEq κ] [LawfulBEq κ]

/-- Looking a name up, one field at a time. -/
theorem lookup_cons_eq (name name' : κ) (v : V) (fields : List (κ × V)) [DecidableEq κ] :
    ((name', v) :: fields).lookup name = if name = name' then some v else fields.lookup name := by
  rw [List.lookup_cons]
  by_cases h : name = name'
  · rw [if_pos h, h, beq_self_eq_true]
  · rw [if_neg h, beq_eq_false_iff_ne.mpr h]

theorem lookup_written_of_notMem (fields : List (κ × Option V)) (name : κ)
    (h : name ∉ fields.map Prod.fst) : (written fields).lookup name = none := by
  rw [List.lookup_eq_none_iff]
  intro field hfield
  rcases List.mem_filterMap.mp hfield with ⟨⟨name', v⟩, hmem, hv⟩
  rcases Option.map_eq_some_iff.mp hv with ⟨v', -, rfl⟩
  have hne : name ≠ name' := fun heq => h (heq ▸ List.mem_map_of_mem hmem)
  simpa using hne

/-- A name holds the value of its field, if it is written. -/
theorem lookup_written (fields : List (κ × Option V)) (name : κ)
    (h : (fields.map Prod.fst).Nodup) :
    (written fields).lookup name = (fields.lookup name).join := by
  induction fields with
  | nil => rfl
  | cons field fields ih =>
      rcases field with ⟨name', v⟩
      rw [List.map_cons, List.nodup_cons] at h
      have hrest := ih h.2
      cases v with
      | none =>
          have hskip : written ((name', none) :: fields) = written fields := rfl
          rw [hskip, List.lookup_cons]
          cases hname : name == name' with
          | true =>
              rw [eq_of_beq hname]
              exact lookup_written_of_notMem fields name' h.1
          | false => exact hrest
      | some v =>
          have hkeep : written ((name', some v) :: fields) = (name', v) :: written fields := rfl
          rw [hkeep, List.lookup_cons, List.lookup_cons]
          cases hname : name == name' with
          | true => rfl
          | false => exact hrest

end Lookup

/-- A list is read back when its items are. -/
theorem mapM_map (encode : α → V) (decode : V → Option α) (xs : List α)
    (h : ∀ a ∈ xs, decode (encode a) = some a) : (xs.map encode).mapM decode = some xs := by
  induction xs with
  | nil => rfl
  | cons a xs ih =>
      have hread := h a List.mem_cons_self
      have hrest := ih (fun b hb => h b (List.mem_cons_of_mem _ hb))
      rw [List.map_cons, List.mapM_cons, hread, hrest]
      rfl

end Record
