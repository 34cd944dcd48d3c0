import MethodSynthesis.Json.Basic

/-!
# Writing JSON documents

One member or element a line, two blanks of indentation for each level, and nothing between the
brackets of an empty array or object. Scalars are written alike at every level.
-/

namespace MethodSynthesis.Json

def indentation (depth : Nat) : List Char := List.replicate (2 * depth) ' '

/-- A string that spells no text is written as a surrogate without partner. -/
def stringChars : Option String → List Char
  | some text => quoted text.toList
  | none => "\"\\ud800\"".toList

def joinLines (depth : Nat) : List (List Char) → List Char
  | [] => []
  | [part] => indentation depth ++ part
  | part :: parts => indentation depth ++ part ++ ',' :: '\n' :: joinLines depth parts

def enclose (opening closing : Char) (depth : Nat) (parts : List (List Char)) : List Char :=
  if parts.isEmpty then [opening, closing]
  else opening :: '\n' :: joinLines (depth + 1) parts ++ '\n' :: indentation depth ++ [closing]

mutual

def prettyChars (depth : Nat) : Json → List Char
  | .null => "null".toList
  | .bool true => "true".toList
  | .bool false => "false".toList
  | .number literal => literal.toChars
  | .string text => stringChars text
  | .array elements => enclose '[' ']' depth (elementParts (depth + 1) elements)
  | .object members => enclose '\x7b' '\x7d' depth (memberParts (depth + 1) members)

def elementParts (depth : Nat) : List Json → List (List Char)
  | [] => []
  | element :: elements => prettyChars depth element :: elementParts depth elements

def memberParts (depth : Nat) : List (Option String × Json) → List (List Char)
  | [] => []
  | (key, value) :: members =>
      (stringChars key ++ ':' :: ' ' :: prettyChars depth value) :: memberParts depth members

end

def pretty (document : Json) : String := String.ofList (prettyChars 0 document)

end MethodSynthesis.Json
