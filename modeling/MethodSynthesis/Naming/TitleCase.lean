import MethodSynthesis.Text.Alphabetic
import MethodSynthesis.Text.CaseMapping

/-!
# Title case

A letter that follows a letter is put into lower case and any other letter into upper case, where an
upper-case form of several characters keeps only its first character in upper case. What is no
letter stays, and the letter behind it starts a word.
-/

namespace MethodSynthesis.Naming

open Text

/-- The form of a letter that starts a word. -/
def capitalized (c : Char) : List Char :=
  match toUpper c with
  | [] => []
  | first :: rest => first :: rest.flatMap toLower

/-- Title case of a text behind a character that is a letter or is not. -/
def titleCaseAfter (behindLetter : Bool) : List Char → List Char
  | [] => []
  | c :: rest =>
      if isLetter c then
        (if behindLetter then toLower c else capitalized c) ++ titleCaseAfter true rest
      else c :: titleCaseAfter false rest

def titleCase (text : List Char) : List Char := titleCaseAfter false text

end MethodSynthesis.Naming
