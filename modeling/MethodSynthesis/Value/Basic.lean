import MethodSynthesis.Binary64.Text

/-!
# Values

What an item stores and a method takes or returns. Equality compares floats as numbers and never
identifies an integer with a float.
-/

namespace MethodSynthesis

inductive Value where
  | null
  | bool (value : Bool)
  | int (value : Int64)
  | float (value : Binary64)
  | string (value : String)
  deriving DecidableEq

namespace Value

instance : Inhabited Value := ⟨.null⟩

def isNull : Value → Bool
  | .null => true
  | _ => false

def bool? : Value → Option Bool
  | .bool b => some b
  | _ => none

def int? : Value → Option Int64
  | .int i => some i
  | _ => none

/-- The number of a numeric value; an integer is widened to the nearest float. -/
def number? : Value → Option Binary64
  | .float x => some x
  | .int i => some (Binary64.ofInt i.toInt)
  | _ => none

def string? : Value → Option String
  | .string s => some s
  | _ => none

def index? : Value → Option Nat
  | .int i => if 0 ≤ i.toInt then some i.toInt.toNat else none
  | _ => none

/-- A position as an integer, taken modulo 2^64 into the signed range. -/
def ofIndex (n : Nat) : Value := .int (Int64.ofNat n)

def kindName : Value → String
  | .null => "Null"
  | .bool _ => "Bool"
  | .int _ => "Int"
  | .float _ => "Float"
  | .string _ => "String"

/-- The text shown in messages; a string stands between quotes as it is. -/
def toText : Value → String
  | .null => "null"
  | .bool b => if b then "true" else "false"
  | .int i => toString i.toInt
  | .float x => x.toText
  | .string s => "\"" ++ s ++ "\""

def equals : Value → Value → Bool
  | .null, .null => true
  | .bool a, .bool b => a = b
  | .int a, .int b => a = b
  | .float x, .float y => x.equals y
  | .string s, .string t => s = t
  | _, _ => false

theorem equals_self (v : Value) :
    v.equals v = true ↔ v ≠ .float .nan := by
  cases v with
  | float x => cases x <;> simp [equals, Binary64.equals_self, Binary64.isNaN]
  | _ => simp [equals]

theorem equals_comm (v w : Value) : v.equals w = w.equals v := by
  cases v <;> cases w <;> simp [equals, Binary64.equals_comm, eq_comm]

theorem equals_nan (v : Value) : v.equals (.float .nan) = false := by
  rw [equals_comm]
  cases v <;> rfl

theorem equals_congr {v w : Value} (h : v.equals w = true) (u : Value) :
    u.equals v = u.equals w := by
  cases v <;> cases w <;> simp only [equals, Bool.false_eq_true, decide_eq_true_eq] at h
  case null.null => rfl
  case float.float x y =>
      cases u with
      | float z => exact Binary64.equals_congr h z
      | _ => rfl
  all_goals rw [h]

end Value

end MethodSynthesis
