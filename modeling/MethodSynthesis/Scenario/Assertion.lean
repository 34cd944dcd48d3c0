import MethodSynthesis.Binary64.Rounding
import MethodSynthesis.Pattern.Engine
import MethodSynthesis.Text.Occurrence
import MethodSynthesis.Value.Basic

/-!
# Assertions

An assertion about the result of a step: its last value or the text of its error. An expected error
is all that is looked at; without one, the step must have succeeded and the value is examined. What
a pattern matches is up to the engine at hand.
-/

namespace MethodSynthesis

namespace Value

/-- Equality with a tolerance: numbers, one of them a float at least, may differ by less than the
gap behind one. -/
def isNear (v w : Value) : Bool :=
  match v, w with
  | .float x, .float y => (x.distance y).less .epsilon
  | .float x, .int i => (x.distance (.ofInt i.toInt)).less .epsilon
  | .int i, .float x => (x.distance (.ofInt i.toInt)).less .epsilon
  | v, w => v.equals w

end Value

inductive ErrorExpectation where
  | containing (part : String)
  | matching (pattern : String)
  deriving DecidableEq

namespace ErrorExpectation

def describe : ErrorExpectation → String
  | .containing part => "containing '" ++ part ++ "'"
  | .matching pattern => "matching '" ++ pattern ++ "'"

end ErrorExpectation

inductive AssertionFailure where
  | otherError (expected : ErrorExpectation) (message : String)
  | noError (expected : ErrorExpectation)
  | malformedPattern (reason : String)
  | stepFailed (message : String)
  | customFailed
  | notNull (actual : Value)
  | mismatch (expected actual : Value)
  deriving DecidableEq

namespace AssertionFailure

def message : AssertionFailure → String
  | .otherError expected message => "expected error " ++ expected.describe ++ ", got: " ++ message
  | .noError expected => "expected error " ++ expected.describe ++ ", but step succeeded"
  | .malformedPattern reason => "invalid regex pattern: " ++ reason
  | .stepFailed message => "step failed: " ++ message
  | .customFailed => "custom assertion failed"
  | .notNull actual => "expected null, got " ++ actual.toText
  | .mismatch expected actual =>
      "value mismatch:\n  expected: " ++ expected.toText ++ "\n  actual:   " ++ actual.toText

end AssertionFailure

structure Assertion where
  error : Option String := none
  errorPattern : Option String := none
  custom : Option (Value → Bool) := none
  null : Bool := false
  value : Option Value := none

namespace Assertion

def ofValue (v : Value) : Assertion := { value := some v }

def expectError (expected : ErrorExpectation) (test : List Char → Bool) :
    Except String Value → Except AssertionFailure Unit
  | .error message => if test message.toList then .ok () else .error (.otherError expected message)
  | .ok _ => .error (.noError expected)

def examineCustom (assertion : Assertion) (actual : Value) : Except AssertionFailure Unit :=
  if assertion.custom.all (· actual) then .ok () else .error .customFailed

def examineNull (assertion : Assertion) (actual : Value) : Except AssertionFailure Unit :=
  if assertion.null && !actual.isNull then .error (.notNull actual) else .ok ()

def examineValue (assertion : Assertion) (actual : Value) : Except AssertionFailure Unit :=
  match assertion.value with
  | none => .ok ()
  | some expected => if actual.isNear expected then .ok () else .error (.mismatch expected actual)

def examine (assertion : Assertion) (actual : Value) : Except AssertionFailure Unit := do
  assertion.examineCustom actual
  assertion.examineNull actual
  assertion.examineValue actual

def verify [PatternEngine] (assertion : Assertion) (result : Except String Value) :
    Except AssertionFailure Unit :=
  match assertion.error, assertion.errorPattern with
  | some part, _ => expectError (.containing part) (Text.occursIn part.toList) result
  | none, some text =>
      match PatternEngine.compile text with
      | .error reason => .error (.malformedPattern reason)
      | .ok test => expectError (.matching text) test result
  | none, none =>
      match result with
      | .error message => .error (.stepFailed message)
      | .ok actual => assertion.examine actual

end Assertion

end MethodSynthesis
