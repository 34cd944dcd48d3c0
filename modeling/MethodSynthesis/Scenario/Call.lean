import MethodSynthesis.Text.Blank
import MethodSynthesis.Value.Json

/-!
# Calls

A call is written as the name of a method and, in brackets, its arguments: JSON scalars parted by
commas. Blanks may stand before the opening bracket and around arguments; the closing bracket ends
the text.
-/

namespace MethodSynthesis

structure Call where
  method : String
  arguments : List Value
  deriving DecidableEq

inductive CallError where
  | notACall (line : String)
  | badArguments (line : String)
  deriving DecidableEq

/-- Where in the arguments the fault lies is not told; the message ends with its colon. -/
def CallError.message : CallError → String
  | .notACall line => "not a call: " ++ line
  | .badArguments line => "bad arguments in '" ++ line ++ "': "

namespace Call

/-! ## Names and brackets -/

def isNameStart (c : Char) : Bool := c.isAlpha || c = '_'

def isNameChar (c : Char) : Bool := c.isAlphanum || c = '_'

def isName : List Char → Bool
  | [] => false
  | c :: rest => isNameStart c && rest.all isNameChar

def isGap (c : Char) : Bool := c = ' ' || (9 ≤ c.toNat && c.toNat ≤ 13)

/-- What stands before a bracket that ends a text of one line. -/
def beforeClosing? (text : List Char) : Option (List Char) :=
  if text.getLast? = some ')' ∧ '\n' ∉ text then some text.dropLast else none

def bracketed? : List Char → Option (List Char)
  | [] => none
  | c :: rest => if c = '(' then beforeClosing? rest else none

def split? (line : List Char) : Option (List Char × List Char) :=
  let name := line.takeWhile isNameChar
  if isName name then
    (bracketed? ((line.dropWhile isNameChar).dropWhile isGap)).map fun inner => (name, inner)
  else none

/-! ## Arguments -/

def arguments? (text : List Char) : Option (List Value) :=
  (Json.readDocument? ('[' :: (text ++ [']']))).bind Value.listOfJson?

def ofText (line : String) : Except CallError Call :=
  match split? line.toList with
  | none => .error (.notACall line)
  | some (name, inner) =>
      match arguments? inner with
      | none => .error (.badArguments line)
      | some arguments => .ok ⟨String.ofList name, arguments⟩

def toText (call : Call) : String :=
  call.method ++ "(" ++ ", ".intercalate (call.arguments.map Value.jsonText) ++ ")"

end Call

end MethodSynthesis
