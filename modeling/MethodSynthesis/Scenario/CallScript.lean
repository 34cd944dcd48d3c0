import MethodSynthesis.Scenario.Call
import MethodSynthesis.Table.Basic
import MethodSynthesis.Text.Lines

/-!
# Call scripts

A script groups calls under the names of steps. Each line, with the blanks at both ends taken off,
opens a step, is skipped, or is one call of the open step; before the first step every line is
skipped. A step that is opened again goes on where it ended.
-/

namespace MethodSynthesis

inductive CallScriptError where
  | emptyStepName
  | call (error : CallError)
  deriving DecidableEq

def CallScriptError.message : CallScriptError → String
  | .emptyStepName => "empty step name after --#"
  | .call error => error.message

inductive ScriptLine where
  | step (name : String)
  | skipped
  | call (text : String)
  deriving DecidableEq

namespace ScriptLine

def stepMark : List Char := "--#".toList

def commentMark : List Char := "--".toList

/-- A step mark starts like a comment and goes before it. -/
def ofChars (line : List Char) : ScriptLine :=
  let text := Text.trim line
  if stepMark.isPrefixOf text then
    .step (String.ofList (Text.trim (text.drop stepMark.length)))
  else if text.isEmpty || commentMark.isPrefixOf text then .skipped
  else .call (String.ofList text)

end ScriptLine

structure CallScript where
  /-- The names of the steps as they are opened, repeated ones included. -/
  stepNames : List String := []
  calls : Table String (List Call) := {}
  deriving DecidableEq

namespace CallScript

/-- The calls of a step, if it is opened anywhere. -/
def callsOf? (script : CallScript) (step : String) : Option (List Call) := script.calls.get? step

def openStep (script : CallScript) (step : String) : CallScript :=
  { stepNames := script.stepNames ++ [step]
    calls := script.calls.insert step ((script.callsOf? step).getD []) }

def addCall (script : CallScript) (step : String) (call : Call) : CallScript :=
  { script with calls := script.calls.insert step ((script.callsOf? step).getD [] ++ [call]) }

theorem callsOf?_openStep (script : CallScript) (opened step : String) :
    (script.openStep opened).callsOf? step =
      if step = opened then some ((script.callsOf? opened).getD []) else script.callsOf? step := by
  simp [callsOf?, openStep, Table.get?_insert]

theorem callsOf?_addCall (script : CallScript) (opened step : String) (call : Call) :
    (script.addCall opened call).callsOf? step =
      if step = opened then some ((script.callsOf? opened).getD [] ++ [call])
      else script.callsOf? step := by
  simp [callsOf?, addCall, Table.get?_insert]

@[simp] theorem stepNames_addCall (script : CallScript) (step : String) (call : Call) :
    (script.addCall step call).stepNames = script.stepNames := rfl

/-- Reads lines behind those read before, within the step that is open, if any. -/
def readLines (script : CallScript) (step? : Option String) :
    List ScriptLine → Except CallScriptError CallScript
  | [] => .ok script
  | .step name :: lines =>
      if name.isEmpty then .error .emptyStepName
      else readLines (script.openStep name) (some name) lines
  | .skipped :: lines => readLines script step? lines
  | .call text :: lines =>
      match step? with
      | none => readLines script none lines
      | some step =>
          match Call.ofText text with
          | .error e => .error (.call e)
          | .ok call => readLines (script.addCall step call) (some step) lines

def ofText (source : String) : Except CallScriptError CallScript :=
  readLines {} none ((Text.splitLines source.toList).map ScriptLine.ofChars)

end CallScript

end MethodSynthesis
