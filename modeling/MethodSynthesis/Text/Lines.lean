/-!
# Lines

A text is cut at its line ends, which belong to no line; behind the last one there is always a line
more.
-/

namespace MethodSynthesis.Text

def consLine (c : Char) : List (List Char) → List (List Char)
  | [] => [[c]]
  | line :: lines => (c :: line) :: lines

def splitLines : List Char → List (List Char)
  | [] => [[]]
  | c :: rest => if c = '\n' then [] :: splitLines rest else consLine c (splitLines rest)

end MethodSynthesis.Text
