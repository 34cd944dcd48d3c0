import MethodSynthesis.Pattern.Basic

/-!
# Search for a pattern

The search reads the text once and looks for all occurrences at the same time. Between two
characters the marked characters of the pattern are those at which some occurrence, begun at any
place before, has arrived; the pattern itself never grows.
-/

namespace MethodSynthesis

/-- A pattern for the search. A character carries a mark: whether the place behind it has just been
reached. A repeated part may be missing, may stand again behind itself, or both. -/
inductive MarkedPattern where
  | char (set : CharSet) (reached : Bool)
  | anchor (place : Anchor)
  | repeated (mayMiss mayGoOn : Bool) (part : MarkedPattern)
  | sequence (parts : List MarkedPattern)
  | choice (options : List MarkedPattern)

/-- The copies of a part that a repetition stands for, the last one without a limit standing for all
further ones. -/
def Repetition.writeOut (times : Repetition) (part : MarkedPattern) : MarkedPattern :=
  .sequence <|
    match times.more with
    | some more =>
        List.replicate times.least part ++ List.replicate more (.repeated true false part)
    | none => List.replicate (times.least - 1) part ++ [.repeated (times.least = 0) true part]

namespace Pattern

mutual

/-- The pattern with its repetitions written out and no mark set. -/
def unmarked : Pattern → MarkedPattern
  | .char set => .char set false
  | .anchor place => .anchor place
  | .group part => unmarked part
  | .repeated times part => times.writeOut (unmarked part)
  | .sequence parts => .sequence (unmarkedAll parts)
  | .choice options => .choice (unmarkedAll options)

def unmarkedAll : List Pattern → List MarkedPattern
  | [] => []
  | part :: parts => unmarked part :: unmarkedAll parts

end

end Pattern

namespace MarkedPattern

mutual

/-- Whether the end of a pattern is reached at a place, from its marks or, if entered, its start. -/
def isPassed (entered : Bool) (before after : Option Char) : MarkedPattern → Bool
  | .char _ reached => reached
  | .anchor place => entered && place.holds before after
  | .repeated mayMiss _ part => entered && mayMiss || isPassed entered before after part
  | .sequence parts => isPassedThrough entered before after parts
  | .choice options => isPassedInSome entered before after options

def isPassedThrough (entered : Bool) (before after : Option Char) : List MarkedPattern → Bool
  | [] => entered
  | part :: parts => isPassedThrough (isPassed entered before after part) before after parts

def isPassedInSome (entered : Bool) (before after : Option Char) : List MarkedPattern → Bool
  | [] => false
  | option :: options =>
      isPassed entered before after option || isPassedInSome entered before after options

end

mutual

def advance (entered : Bool) (before : Option Char) (c : Char) : MarkedPattern → MarkedPattern
  | .char set _ => .char set (entered && set.contains c)
  | .anchor place => .anchor place
  | .repeated mayMiss mayGoOn part =>
      let again := mayGoOn && isPassed entered before (some c) part
      .repeated mayMiss mayGoOn (advance (entered || again) before c part)
  | .sequence parts => .sequence (advanceThrough entered before c parts)
  | .choice options => .choice (advanceEach entered before c options)

/-- Moves the marks of parts, each entered where the part before it ends. -/
def advanceThrough (entered : Bool) (before : Option Char) (c : Char) :
    List MarkedPattern → List MarkedPattern
  | [] => []
  | part :: parts =>
      advance entered before c part ::
        advanceThrough (isPassed entered before (some c) part) before c parts

def advanceEach (entered : Bool) (before : Option Char) (c : Char) :
    List MarkedPattern → List MarkedPattern
  | [] => []
  | option :: options => advance entered before c option :: advanceEach entered before c options

end

/-- Searches behind a character; an occurrence may begin at every place. -/
def searchBehind (p : MarkedPattern) (before : Option Char) : List Char → Bool
  | [] => p.isPassed true before none
  | c :: rest =>
      p.isPassed true before (some c) || searchBehind (p.advance true before c) (some c) rest

end MarkedPattern

def Pattern.occursIn (p : Pattern) (text : List Char) : Bool := p.unmarked.searchBehind none text

end MethodSynthesis
