import MethodSynthesis.Value.Basic

/-!
# Item definitions

What is declared about an item: its storage type, how many slots it has, which facets it exposes,
its bounds, its choices and its initial value.
-/

namespace MethodSynthesis

inductive ItemType where
  | double
  | int
  | string
  | void
  deriving DecidableEq

namespace ItemType

def all : List ItemType := [.double, .int, .string, .void]

def isValueBearing : ItemType → Bool
  | .void => false
  | _ => true

def name : ItemType → String
  | .double => "Double"
  | .int => "Int"
  | .string => "String"
  | .void => "Void"

def keyword : ItemType → String
  | .double => "double"
  | .int => "int"
  | .string => "string"
  | .void => "void"

def ofKeyword? (word : String) : Option ItemType := all.find? fun type => type.keyword = word

theorem ofKeyword?_keyword (type : ItemType) : ofKeyword? type.keyword = some type := by
  cases type <;> decide

end ItemType

structure DiscreteChoice where
  label : String
  value : Value
  deriving DecidableEq

structure ItemDefinition where
  name : String
  type : ItemType
  numberOfValues : Nat := 1
  optional : Bool := false
  enabledByDefault : Bool := false
  default : Option Value := none
  min : Option Value := none
  max : Option Value := none
  discrete : List DiscreteChoice := []
  defaultDiscreteIndex : Option Nat := none
  deriving DecidableEq

namespace ItemDefinition

/-- Sets the bounds that are given and keeps the others. -/
def withRange (d : ItemDefinition) (min max : Option Value) : ItemDefinition :=
  { d with min := min.or d.min, max := max.or d.max }

def withChoice (d : ItemDefinition) (label : String) (value : Value) : ItemDefinition :=
  { d with discrete := d.discrete ++ [⟨label, value⟩] }

def isDiscrete (d : ItemDefinition) : Bool := d.type.isValueBearing && !d.discrete.isEmpty

end ItemDefinition

end MethodSynthesis
