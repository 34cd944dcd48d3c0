import MethodSynthesis.Value.Basic
import MethodSynthesis.Json.Reader
import MethodSynthesis.Json.Printer

/-!
# Values in JSON

Scalars are values, arrays and objects never are. An integer literal in the signed 64-bit range is
an integer and every other number is a float; a float that is not finite is written as null.
-/

namespace MethodSynthesis.Value

def ofNumber? (literal : NumberLiteral) : Option Value :=
  match literal.int64? with
  | some i => some (.int i)
  | none => literal.binary64?.map .float

def ofJson? : Json → Option Value
  | .null => some .null
  | .bool b => some (.bool b)
  | .number literal => ofNumber? literal
  | .string text => text.map .string
  | .array _ => none
  | .object _ => none

def listOfJson? : Json → Option (List Value)
  | .array elements => elements.mapM ofJson?
  | _ => none

def toJson : Value → Json
  | .null => .null
  | .bool b => .bool b
  | .int i => .number (.ofInt i.toInt)
  | .float (.finite negative m) => .number (.ofMagnitude negative m)
  | .float _ => .null
  | .string s => .string (some s)

def jsonText (v : Value) : String := v.toJson.pretty

def ofJsonText? (text : String) : Option Value := do
  let document ← Json.parse? text
  ofJson? document

end MethodSynthesis.Value
