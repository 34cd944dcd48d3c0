import MethodSynthesis.Operation.Basic
import MethodSynthesis.Scenario.Assertion
import MethodSynthesis.Scenario.CallScript
import MethodSynthesis.Scenario.Files

/-!
# Errors of scenarios
-/

namespace MethodSynthesis

inductive ScriptSource where
  | inText
  | file (path : String)
  deriving DecidableEq

namespace ScriptSource

def faultOf (name message : String) : String :=
  "failed to parse calls file '" ++ name ++ "': " ++ message

/-- The fault of a script as its source tells it; a file tells it of the text that it holds. -/
def describe (source : ScriptSource) (error : CallScriptError) : String :=
  match source with
  | .inText => faultOf "<inline>" error.message
  | .file path => faultOf path (faultOf "<inline>" error.message)

end ScriptSource

inductive ScenarioError where
  | unreadable (path : String) (fault : FileFault)
  | malformedScript (source : ScriptSource) (error : CallScriptError)
  | malformedDefinition (path : String) (error : ItemError)
  | operationFailed (step : String) (error : OperationError)
  | assertionFailed (step : String) (failure : AssertionFailure)
  | stepNotFound (step : String)
  | missingDefinition (scenario : String)
  | missingScript (scenario : String)
  deriving DecidableEq

namespace ScenarioError

def message : ScenarioError → String
  | .unreadable path fault => "failed to read file '" ++ path ++ "': " ++ fault.message
  | .malformedScript source error => source.describe error
  | .malformedDefinition path error =>
      "failed to load definition '" ++ path ++ "': " ++ error.message
  | .operationFailed step error => "step '" ++ step ++ "' failed: " ++ error.message
  | .assertionFailed step failure =>
      "assertion failed for step '" ++ step ++ "': " ++ failure.message
  | .stepNotFound step => "step '" ++ step ++ "' not found in calls file"
  | .missingDefinition scenario => "definition not specified for scenario '" ++ scenario ++ "'"
  | .missingScript scenario => "calls file not found: " ++ scenario

end ScenarioError

end MethodSynthesis
