import MethodSynthesis.Naming.MethodKind
import MethodSynthesis.Naming.Tokens

/-!
# Method names

A name that has tokens names six methods. Getters start with the first token in lower case; setters
put a verb before all tokens; two suffixes tell the optional and the discrete methods apart.
-/

namespace MethodSynthesis

structure NamingVerbs where
  set : String := "set"
  enable : String := "enable"
  index : String := "Index"
  enabled : String := "Enabled"
  deriving DecidableEq

/-- The tokens of a name that has at least one. -/
structure MethodNames where
  first : List Char
  rest : List (List Char)
  deriving DecidableEq

namespace MethodNames

def derive? (itemName : String) : Option MethodNames :=
  match Naming.tokenize itemName with
  | [] => none
  | first :: rest => some ⟨first, rest⟩

def tokens (names : MethodNames) : List (List Char) := names.first :: names.rest

def pascal (names : MethodNames) : String := String.ofList names.tokens.flatten

/-- All tokens, the first in lower case. Tokens are ASCII, and so is their case mapping. -/
def camel (names : MethodNames) : String :=
  String.ofList (names.first.map Char.toLower ++ names.rest.flatten)

def method (names : MethodNames) (kind : MethodKind) (verbs : NamingVerbs) : String :=
  match kind with
  | .setValue => verbs.set ++ names.pascal
  | .value => names.camel
  | .enable => verbs.enable ++ names.pascal
  | .isEnabled => names.camel ++ verbs.enabled
  | .setDiscreteIndex => verbs.set ++ names.pascal ++ verbs.index
  | .discreteIndex => names.camel ++ verbs.index

end MethodNames

end MethodSynthesis
