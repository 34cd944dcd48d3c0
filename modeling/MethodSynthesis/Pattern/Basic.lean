/-!
# Patterns

A pattern describes texts by sets of characters, anchors, sequence, choice and repetition. An anchor
takes no character; it looks at the characters on both sides of its place.
-/

namespace MethodSynthesis

/-! ## Characters -/

/-- The characters within one of the ranges, or, when negated, those within none. -/
structure CharClass where
  ranges : List (Char × Char)
  negated : Bool := false
  deriving DecidableEq

namespace CharClass

def single (c : Char) : CharClass := ⟨[(c, c)], false⟩

def negate (cls : CharClass) : CharClass := { cls with negated := !cls.negated }

def contains (cls : CharClass) (c : Char) : Bool :=
  (cls.ranges.any fun range => range.1 ≤ c && c ≤ range.2) != cls.negated

def digits : CharClass := ⟨[('0', '9')], false⟩

def blanks : CharClass := ⟨[('\t', '\r'), (' ', ' ')], false⟩

/-- Words are made of ASCII letters, digits and the underscore. -/
def wordChars : CharClass := ⟨[('0', '9'), ('A', 'Z'), ('_', '_'), ('a', 'z')], false⟩

end CharClass

/-- The characters of some classes, or, when negated, all others. -/
structure CharSet where
  classes : List CharClass
  ignoresCase : Bool := false
  negated : Bool := false
  deriving DecidableEq

namespace CharSet

/-- An ASCII letter in the other case, any other character as it is. -/
def otherCase (c : Char) : Char := if c.isUpper then c.toLower else c.toUpper

def contains (set : CharSet) (c : Char) : Bool :=
  (set.classes.any (·.contains c) ||
    set.ignoresCase && set.classes.any (·.contains (otherCase c))) != set.negated

end CharSet

/-! ## Places -/

inductive Anchor where
  | start
  | finish
  | lineStart
  | lineFinish
  | returnLineStart
  | returnLineFinish
  | wordEdge
  | noWordEdge
  | wordStart
  | wordEnd
  | wordStartHalf
  | wordEndHalf
  deriving DecidableEq

/-- Whether an anchor holds between two characters, absent at the ends of the text. A line ends at a
newline; where returns count as well, a return with a newline behind it is one end with it. -/
def Anchor.holds (before after : Option Char) : Anchor → Bool
  | .start => before.isNone
  | .finish => after.isNone
  | .lineStart => before.all (· = '\n')
  | .lineFinish => after.all (· = '\n')
  | .returnLineStart => before.all fun c => c = '\n' || c = '\r' && after ≠ some '\n'
  | .returnLineFinish => after.all fun c => c = '\r' || c = '\n' && before ≠ some '\r'
  | .wordEdge => before.any inWord != after.any inWord
  | .noWordEdge => before.any inWord == after.any inWord
  | .wordStart => !before.any inWord && after.any inWord
  | .wordEnd => before.any inWord && !after.any inWord
  | .wordStartHalf => !before.any inWord
  | .wordEndHalf => !after.any inWord
where
  inWord (c : Char) : Bool := CharClass.wordChars.contains c

/-- How often a part must stand, and how often more it may; no limit is set if none is given. -/
structure Repetition where
  least : Nat
  more : Option Nat
  deriving DecidableEq

/-- How many copies of the part it takes to write the repetition out. -/
def Repetition.copies (times : Repetition) : Nat :=
  match times.more with
  | some more => times.least + more
  | none => max times.least 1

/-- A numbered group matches what its part matches. -/
inductive Pattern where
  | char (set : CharSet)
  | anchor (place : Anchor)
  | group (part : Pattern)
  | repeated (times : Repetition) (part : Pattern)
  | sequence (parts : List Pattern)
  | choice (options : List Pattern)

namespace Pattern

def ofParts : List Pattern → Pattern
  | [part] => part
  | parts => .sequence parts

def ofOptions : List Pattern → Pattern
  | [option] => option
  | options => .choice options

/-- A part that stands never or exactly once is not repeated. -/
def ofRepetition (times : Repetition) (part : Pattern) : Pattern :=
  if times = ⟨0, some 0⟩ then .sequence []
  else if times = ⟨1, some 0⟩ then part
  else .repeated times part

mutual

def nesting : Pattern → Nat
  | .char _ => 0
  | .anchor _ => 0
  | .group part => nesting part + 1
  | .repeated _ part => nesting part + 1
  | .sequence parts => nestingOfAll parts
  | .choice options => nestingOfAll options

def nestingOfAll : List Pattern → Nat
  | [] => 0
  | part :: parts => max (nesting part + 1) (nestingOfAll parts)

end

mutual

/-- The number of patterns inside a pattern whose repetitions are written out, with itself. -/
def size : Pattern → Nat
  | .char _ => 1
  | .anchor _ => 1
  | .group part => size part + 1
  | .repeated times part => times.copies * size part + 1
  | .sequence parts => sizeOfAll parts + 1
  | .choice options => sizeOfAll options + 1

def sizeOfAll : List Pattern → Nat
  | [] => 0
  | part :: parts => size part + sizeOfAll parts

end

end Pattern

end MethodSynthesis
