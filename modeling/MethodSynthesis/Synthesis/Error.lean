import MethodSynthesis.Item.Error
import MethodSynthesis.Naming.MethodKind
import MethodSynthesis.Text.Escaped

/-!
# Errors of synthesis and of calls
-/

namespace MethodSynthesis

inductive ArgumentKind where
  | index
  | flag
  deriving DecidableEq

namespace ArgumentKind

def name : ArgumentKind → String
  | .index => "non-negative Int"
  | .flag => "Bool"

/-- A refused index is shown itself, a refused flag by its kind. -/
def showRefused : ArgumentKind → Value → String
  | .index, v => v.toText
  | .flag, v => v.kindName

end ArgumentKind

inductive SynthesisError where
  | emptyMethodName (item : String)
  | nameCollision (method existing incoming : String)
  | unknownMethod (method : String)
  | arity (method : String) (kind : MethodKind) (actual : Nat)
  | argumentType (method : String) (position : Nat) (expected : ArgumentKind) (actual : Value)
  | itemNotFound (item : String)
  | missingCapability (item : String) (capability : Capability)
  | refused (error : ItemError)
  deriving DecidableEq

namespace SynthesisError

def message : SynthesisError → String
  | .emptyMethodName item =>
      "Item name " ++ Text.escaped item ++ " yields no method name tokens"
  | .nameCollision method existing incoming =>
      "Method name collision: " ++ method ++ " from item " ++ existing ++ " and item " ++ incoming
  | .unknownMethod method => "Unknown method: " ++ method
  | .arity method kind actual =>
      "Invalid arity for " ++ method ++ ": expected " ++ kind.signature ++
        ", got " ++ toString actual
  | .argumentType method position expected actual =>
      "Invalid argument " ++ toString position ++ " for " ++ method ++ ": expected " ++
        expected.name ++ ", got " ++ expected.showRefused actual
  | .itemNotFound item => "Item not found: " ++ item
  | .missingCapability item capability =>
      "Item " ++ item ++ " no longer exposes the " ++ capability.name ++ " capability"
  | .refused error => "attribute error: " ++ error.message

end SynthesisError

end MethodSynthesis
