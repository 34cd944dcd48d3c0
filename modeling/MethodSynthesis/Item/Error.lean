import MethodSynthesis.Item.Definition

/-!
# Errors of items and definitions
-/

namespace MethodSynthesis

/-- Which bound a number violates, with what is declared about the other one. -/
inductive RangeViolation where
  | below (minimum : Binary64) (maximum : Option Value)
  | above (minimum : Option Value) (maximum : Binary64)
  deriving DecidableEq

namespace RangeViolation

def describe : RangeViolation → String
  | .below minimum none => "[>= " ++ minimum.toText ++ "]"
  | .below minimum (some maximum) => "[" ++ minimum.toText ++ ".." ++ maximum.toText ++ "]"
  | .above none maximum => "[<= " ++ maximum.toText ++ "]"
  | .above (some minimum) maximum => "[" ++ minimum.toText ++ ".." ++ maximum.toText ++ "]"

end RangeViolation

inductive ItemError where
  | duplicateName (container name : String)
  | slotOutOfRange (item : String) (slot slots : Nat)
  | typeMismatch (item : String) (expected : ItemType) (actual : Value)
  | outOfRange (item : String) (value : Value) (violation : RangeViolation)
  | choiceOutOfRange (item : String) (choice choices : Nat)
  | notAChoice (item : String) (value : Value)
  | noValues (item : String) (type : ItemType)
  | malformedJson
  deriving DecidableEq

namespace ItemError

/-- Where in a JSON text the fault lies is not told; the message ends with its colon. -/
def message : ItemError → String
  | .duplicateName container name => "Duplicate item name: " ++ name ++ " in " ++ container
  | .slotOutOfRange item slot slots =>
      "Value index " ++ toString slot ++ " out of range for item " ++ item ++
        " (" ++ toString slots ++ " values)"
  | .typeMismatch item expected actual =>
      "Invalid value type for item " ++ item ++ ": expected " ++ expected.name ++
        ", got " ++ actual.kindName
  | .outOfRange item value violation =>
      "Range constraint violated: " ++ item ++ " value " ++ value.toText ++
        " is out of range " ++ violation.describe
  | .choiceOutOfRange item choice choices =>
      "Discrete choice " ++ toString choice ++ " out of range for item " ++ item ++
        " (" ++ toString choices ++ " choices)"
  | .notAChoice item value =>
      "Value " ++ value.toText ++ " is not one of the discrete values of item " ++ item
  | .noValues item type => "Item " ++ item ++ " of type " ++ type.name ++ " cannot hold values"
  | .malformedJson => "Invalid definition JSON: "

end ItemError

end MethodSynthesis
