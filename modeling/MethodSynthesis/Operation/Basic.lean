import MethodSynthesis.Definition.Basic
import MethodSynthesis.Synthesis.EffectiveParameters

/-!
# Operations

An operation is a type name with a parameter container of its own. Its effective parameters are
synthesized afresh at every retrieval.
-/

namespace MethodSynthesis

inductive OperationError where
  | unknownOperation (namespaceName typeName : String)
  | notConstructible (namespaceName typeName : String)
  | synthesis (error : SynthesisError)
  | refused (error : ItemError)
  deriving DecidableEq

namespace OperationError

def message : OperationError → String
  | .unknownOperation namespaceName typeName =>
      "Unknown operation: " ++ namespaceName ++ "." ++ typeName
  | .notConstructible namespaceName typeName =>
      "Operation " ++ namespaceName ++ "." ++ typeName ++ " was registered without a factory"
  | .synthesis error => "synthesis error: " ++ error.message
  | .refused error => "attribute error: " ++ error.message

end OperationError

structure Operation where
  typeName : String
  parameters : Parameters
  deriving DecidableEq

namespace Operation

def ofDefinition (typeName : String) (d : Definition) : Except OperationError Operation :=
  match d.createParameters with
  | .ok parameters => .ok ⟨typeName, parameters⟩
  | .error e => .error (.refused e)

def effectiveParameters (operation : Operation) (options : SynthesisOptions := {}) :
    Except OperationError EffectiveParameters :=
  match EffectiveParameters.ofParameters operation.parameters options with
  | .ok api => .ok api
  | .error e => .error (.synthesis e)

end Operation

end MethodSynthesis
