import MethodSynthesis.Definition.Json
import MethodSynthesis.Scenario.Error

/-!
# Scenarios

A scenario builds one operation and runs the calls of its steps against it, each step with effective
parameters retrieved afresh, up to the first assertion that fails. A definition or a script that is
given in memory goes before one in a file.
-/

namespace MethodSynthesis

structure ScenarioStep where
  name : String
  assertion : Assertion

structure Scenario where
  /-- Also the type name of the operation. -/
  name : String
  definition : Option Definition := none
  definitionPath : Option String := none
  script : Option CallScript := none
  scriptPath : Option String := none
  steps : List ScenarioStep := []
  basePath : String := ""

namespace Scenario

/-! ## Loading -/

def readFile (s : Scenario) (files : Files) (path : String) :
    Except ScenarioError (String × String) :=
  let path := Path.resolve s.basePath path
  match files.read path with
  | .ok text => .ok (path, text)
  | .error fault => .error (.unreadable path fault)

def loadScript (s : Scenario) (files : Files) : Except ScenarioError CallScript :=
  match s.script, s.scriptPath with
  | some script, _ => .ok script
  | none, none => .error (.missingScript s.name)
  | none, some path => do
      let (path, text) ← s.readFile files path
      match CallScript.ofText text with
      | .ok script => return script
      | .error e => throw (.malformedScript (.file path) e)

def loadDefinition (s : Scenario) (files : Files) : Except ScenarioError Definition :=
  match s.definition, s.definitionPath with
  | some definition, _ => .ok definition
  | none, none => .error (.missingDefinition s.name)
  | none, some path => do
      let (path, text) ← s.readFile files path
      match Definition.ofJsonText text with
      | .ok definition => return definition
      | .error e => throw (.malformedDefinition path e)

/-! ## Running -/

/-- Runs calls up to the first that fails; without calls the last value is the answer. -/
def runCalls (last : Value) (api : EffectiveParameters) :
    List Call → Except SynthesisError Value × EffectiveParameters
  | [] => (.ok last, api)
  | call :: calls =>
      match api.call call.method call.arguments with
      | (.ok value, api) => runCalls value api calls
      | (.error e, api) => (.error e, api)

def stepResult : Except SynthesisError Value → Except String Value
  | .ok value => .ok value
  | .error e => .error e.message

/-- Runs the calls of one step and gives the operation behind them. -/
def runStep [PatternEngine] (script : CallScript) (operation : Operation) (step : ScenarioStep) :
    Except ScenarioError Operation := do
  match script.callsOf? step.name with
  | none => throw (.stepNotFound step.name)
  | some calls =>
      match operation.effectiveParameters with
      | .error e => throw (.operationFailed step.name e)
      | .ok api =>
          let (result, api) := runCalls .null api calls
          match step.assertion.verify (stepResult result) with
          | .error failure => throw (.assertionFailed step.name failure)
          | .ok () => return { operation with parameters := api.parameters }

/-- The step named when the operation cannot be built. -/
def setupStep : String := "setup"

def setUp (s : Scenario) (definition : Definition) : Except ScenarioError Operation :=
  match Operation.ofDefinition s.name definition with
  | .ok operation => .ok operation
  | .error e => .error (.operationFailed setupStep e)

/-- Runs all steps in order; the script is loaded before the definition. -/
def run [PatternEngine] (s : Scenario) (files : Files) : Except ScenarioError Operation := do
  let script ← s.loadScript files
  let definition ← s.loadDefinition files
  let operation ← s.setUp definition
  s.steps.foldlM (runStep script) operation

end Scenario

end MethodSynthesis
