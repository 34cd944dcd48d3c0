import MethodSynthesis.Json.Number
import MethodSynthesis.Json.Quoted

/-!
# JSON documents

A document is a tree whose objects keep their members in written order, repeated keys included. A
string whose escapes spell no text is kept as `none`: it may stand where nothing looks at it.
-/

namespace MethodSynthesis

inductive Json where
  | null
  | bool (value : Bool)
  | number (literal : NumberLiteral)
  | string (text : Option String)
  | array (elements : List Json)
  | object (members : List (Option String × Json))

namespace Json

def isBlank (c : Char) : Bool := c = ' ' || c = '\t' || c = '\n' || c = '\r'

def skipBlank (text : List Char) : List Char := text.dropWhile isBlank

end Json

end MethodSynthesis
