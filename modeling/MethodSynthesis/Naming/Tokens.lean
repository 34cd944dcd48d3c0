import MethodSynthesis.Naming.TitleCase

/-!
# Tokens

The tokens of a name are the maximal runs of ASCII letters and digits in its title case.
-/

namespace MethodSynthesis.Naming

def isAlphanumeric (c : Char) : Bool :=
  ('a' ≤ c && c ≤ 'z') || ('A' ≤ c && c ≤ 'Z') || ('0' ≤ c && c ≤ '9')

def consRun (run : List Char) (runs : List (List Char)) : List (List Char) :=
  if run.isEmpty then runs else run :: runs

/-- The run at the start of a text, perhaps empty, and the nonempty runs behind it. -/
def splitRuns : List Char → List Char × List (List Char)
  | [] => ([], [])
  | c :: rest =>
      let (run, runs) := splitRuns rest
      if isAlphanumeric c then (c :: run, runs) else ([], consRun run runs)

/-- The maximal alphanumeric runs of a text in order. -/
def alphanumericRuns (text : List Char) : List (List Char) :=
  let (run, runs) := splitRuns text
  consRun run runs

def tokenize (name : String) : List (List Char) := alphanumericRuns (titleCase name.toList)

end MethodSynthesis.Naming
