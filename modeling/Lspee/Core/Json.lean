import Mathlib.Algebra.Order.Ring.Nat
import Mathlib.Data.Rat.Defs

/-!
# JSON Values

The values the protocol carries: request ids, LSP messages, payloads. A number
is an integer or a finite float; the two are different values even when they
are numerically equal, and two floats are equal when their values are. An
object lists its fields in key order, each key once.

Only what the daemon does with a value is defined here: looking a field up,
reading it as a string or an unsigned integer, and comparing two values. A
request id is an arbitrary value, so comparing ids is comparing values.

## Main definitions

* `Json`: A JSON value.
* `get`: A field of an object.
* `asStr`, `asU64`: A value read at a type.

## Theorems

* `beq_iff`: The comparison decides equality.
-/

namespace Lspee

/-- A JSON value. -/
inductive Json where
  | null
  | bool (b : Bool)
  | num (n : Int)
  | float (q : Rat)
  | str (s : String)
  | arr (items : List Json)
  | obj (fields : List (String × Json))
deriving Inhabited

namespace Json

mutual

/-- Comparison of two values. -/
def beq : Json → Json → Bool
  | null, null => true
  | bool a, bool b => a == b
  | num a, num b => a == b
  | float a, float b => a == b
  | str a, str b => a == b
  | arr as, arr bs => beqItems as bs
  | obj as, obj bs => beqFields as bs
  | _, _ => false

/-- Comparison of two arrays, item by item. -/
def beqItems : List Json → List Json → Bool
  | [], [] => true
  | a :: as, b :: bs => beq a b && beqItems as bs
  | _, _ => false

/-- Comparison of two objects, field by field. -/
def beqFields : List (String × Json) → List (String × Json) → Bool
  | [], [] => true
  | (j, a) :: as, (k, b) :: bs => j == k && beq a b && beqFields as bs
  | _, _ => false

end

mutual

theorem beq_iff : ∀ a b : Json, beq a b = true ↔ a = b
  | null, b => by cases b <;> simp [beq]
  | bool a, b => by cases b <;> simp [beq]
  | num a, b => by cases b <;> simp [beq]
  | float a, b => by cases b <;> simp [beq]
  | str a, b => by cases b <;> simp [beq]
  | arr as, b => by
      cases b with
      | arr bs => simp [beq, beqItems_iff as bs]
      | _ => simp [beq]
  | obj as, b => by
      cases b with
      | obj bs => simp [beq, beqFields_iff as bs]
      | _ => simp [beq]

theorem beqItems_iff : ∀ as bs : List Json, beqItems as bs = true ↔ as = bs
  | [], bs => by cases bs <;> simp [beqItems]
  | a :: as, bs => by
      cases bs with
      | nil => simp [beqItems]
      | cons b bs => simp [beqItems, beq_iff a b, beqItems_iff as bs]

theorem beqFields_iff : ∀ as bs : List (String × Json), beqFields as bs = true ↔ as = bs
  | [], bs => by cases bs <;> simp [beqFields]
  | (j, a) :: as, bs => by
      cases bs with
      | nil => simp [beqFields]
      | cons kb bs =>
          rcases kb with ⟨k, b⟩
          simp [beqFields, beq_iff a b, beqFields_iff as bs]

end

instance : DecidableEq Json := fun a b => decidable_of_iff _ (beq_iff a b)

/-- The field of an object, as `Value::get` finds it; other values have no
    fields. -/
def get (v : Json) (key : String) : Option Json :=
  match v with
  | obj fields => fields.lookup key
  | _ => none

/-- The text of a string value, as `Value::as_str` gives it. -/
def asStr : Json → Option String
  | str s => some s
  | _ => none

/-- The number of an integer value that is not negative (`Value::as_u64`). -/
def asU64 : Json → Option Nat
  | num n => if 0 ≤ n then some n.toNat else none
  | _ => none

end Json

end Lspee
