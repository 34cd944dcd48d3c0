import MethodSynthesis.Item.Error

/-!
# Validation of values

A value is stored in the type of its item: a float item widens integers, and null is stored by
every item. Numbers are compared with the declared bounds as floats; what is no number, and a bound
that is no number, is not compared.
-/

namespace MethodSynthesis

def ItemType.store? : ItemType → Value → Option Value
  | _, .null => some .null
  | .double, .float x => some (.float x)
  | .double, .int i => some (.float (.ofInt i.toInt))
  | .int, .int i => some (.int i)
  | .string, .string s => some (.string s)
  | _, _ => none

namespace ItemDefinition

def coerce (d : ItemDefinition) (v : Value) : Except ItemError Value :=
  match d.type.store? v with
  | some stored => .ok stored
  | none => .error (.typeMismatch d.name d.type v)

/-- The number of a bound that is declared and numeric. -/
def bound? (bound : Option Value) : Option Binary64 := bound.bind Value.number?

def below? (d : ItemDefinition) (x : Binary64) : Option RangeViolation :=
  match bound? d.min with
  | some low => if x.less low then some (.below low d.max) else none
  | none => none

def above? (d : ItemDefinition) (x : Binary64) : Option RangeViolation :=
  match bound? d.max with
  | some high => if high.less x then some (.above d.min high) else none
  | none => none

def violation? (d : ItemDefinition) (x : Binary64) : Option RangeViolation :=
  (d.below? x).or (d.above? x)

def checkRange (d : ItemDefinition) (v : Value) : Except ItemError Unit :=
  match v.number? with
  | none => .ok ()
  | some x =>
      match d.violation? x with
      | none => .ok ()
      | some violation => .error (.outOfRange d.name v violation)

end ItemDefinition

end MethodSynthesis
