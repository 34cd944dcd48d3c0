import MethodSynthesis.Json.Quoted
import MethodSynthesis.Pattern.Basic
import MethodSynthesis.Pattern.Fault
import MethodSynthesis.Text.Alphabetic
import MethodSynthesis.Text.Blank
import MethodSynthesis.Text.Numeric

/-!
# Reading patterns

A pattern text is read token by token: characters with a meaning of their own, escapes, bracketed
sets, the openings and closings of groups. What a token is depends on the flags that are set where
it stands. Groups are built from the tokens with the groups around them kept aside.
-/

namespace MethodSynthesis.Pattern

/-! ## Flags -/

structure Flags where
  ignoresCase : Bool := false
  /-- Anchors hold at the ends of lines. -/
  splitsLines : Bool := false
  dotTakesAll : Bool := false
  /-- A return ends a line as well. -/
  endsAtReturn : Bool := false
  /-- Blanks and comments in the pattern stand for nothing. -/
  skipsBlanks : Bool := false

namespace Flags

/-- Sets or clears the flag of a letter. Which match is preferred, and which characters are known,
does not change whether a text matches. -/
def set? (flags : Flags) (value : Bool) : Char → Option Flags
  | 'i' => some { flags with ignoresCase := value }
  | 'm' => some { flags with splitsLines := value }
  | 's' => some { flags with dotTakesAll := value }
  | 'R' => some { flags with endsAtReturn := value }
  | 'x' => some { flags with skipsBlanks := value }
  | 'U' => some flags
  | 'u' => some flags
  | _ => none

/-- Drops blanks and comments; a comment goes up to the end of its line. -/
def dropIgnored (inComment : Bool) : List Char → List Char
  | [] => []
  | c :: rest =>
      if inComment then dropIgnored (c ≠ '\n') rest
      else if Text.isBlank c then dropIgnored false rest
      else if c = '#' then dropIgnored true rest
      else c :: rest

def skip (flags : Flags) (text : List Char) : List Char :=
  if flags.skipsBlanks then dropIgnored false text else text

/-- The characters up to the first that fails a test, among those that count. -/
def readWhile (flags : Flags) (test : Char → Bool) : Nat → List Char → List Char × List Char
  | 0, text => ([], text)
  | _ + 1, [] => ([], [])
  | fuel + 1, c :: rest =>
      if test c then
        let (taken, rest) := readWhile flags test fuel (flags.skip rest)
        (c :: taken, rest)
      else ([], c :: rest)

def charPattern (flags : Flags) (c : Char) : Pattern :=
  .char { classes := [.single c], ignoresCase := flags.ignoresCase }

def dotPattern (flags : Flags) : Pattern :=
  let lineEnds : List (Char × Char) :=
    if flags.dotTakesAll then []
    else if flags.endsAtReturn then [('\n', '\n'), ('\r', '\r')]
    else [('\n', '\n')]
  .char { classes := [⟨lineEnds, true⟩] }

def startAnchor (flags : Flags) : Anchor :=
  if !flags.splitsLines then .start
  else if flags.endsAtReturn then .returnLineStart
  else .lineStart

def finishAnchor (flags : Flags) : Anchor :=
  if !flags.splitsLines then .finish
  else if flags.endsAtReturn then .returnLineFinish
  else .lineFinish

end Flags

/-! ## Escapes -/

inductive Escape where
  | char (c : Char)
  | cls (cls : CharClass)
  | anchor (place : Anchor)

def letterEscape? : Char → Option Escape
  | 'a' => some (.char '\x07')
  | 'f' => some (.char '\x0C')
  | 'n' => some (.char '\n')
  | 'r' => some (.char '\r')
  | 't' => some (.char '\t')
  | 'v' => some (.char '\x0B')
  | 'd' => some (.cls .digits)
  | 'D' => some (.cls CharClass.digits.negate)
  | 's' => some (.cls .blanks)
  | 'S' => some (.cls CharClass.blanks.negate)
  | 'w' => some (.cls .wordChars)
  | 'W' => some (.cls CharClass.wordChars.negate)
  | 'A' => some (.anchor .start)
  | 'z' => some (.anchor .finish)
  | 'B' => some (.anchor .noWordEdge)
  | '<' => some (.anchor .wordStart)
  | '>' => some (.anchor .wordEnd)
  | _ => none

/-- The characters that stand for themselves behind a backslash. -/
def isEscapable (c : Char) : Bool :=
  c.toNat < 128 && !c.isAlphanum && c ≠ '<' && c ≠ '>'

def codeWidth? : Char → Option Nat
  | 'x' => some 2
  | 'u' => some 4
  | 'U' => some 8
  | _ => none

def isHexDigit (c : Char) : Bool := (Json.hexValue? c).isSome

def ofHexDigits (digits : List Char) : Nat :=
  digits.foldl (fun code digit => code * 16 + (Json.hexValue? digit).getD 0) 0

def readChar (digits : List Char) : Except PatternFault Char :=
  let code := ofHexDigits digits
  if digits.isEmpty ∨ ¬ code.isValidChar then .error .invalidCode else .ok (Char.ofNat code)

def readHexDigits (flags : Flags) :
    Nat → List Char → Except PatternFault (List Char × List Char)
  | 0, text => .ok ([], text)
  | _ + 1, [] => .error .unclosedCode
  | count + 1, c :: rest =>
      if isHexDigit c then do
        let (digits, rest) ← readHexDigits flags count (flags.skip rest)
        return (c :: digits, rest)
      else .error .invalidCode

/-- A code of fixed width, or one in braces. -/
def readCode (flags : Flags) (width : Nat) (text : List Char) :
    Except PatternFault (Char × List Char) :=
  match flags.skip text with
  | '\x7b' :: rest =>
      let (digits, rest) := flags.readWhile isHexDigit rest.length (flags.skip rest)
      match rest with
      | [] => .error .unclosedCode
      | c :: rest =>
          if c = '\x7d' then (readChar digits).map fun c => (c, rest) else .error .invalidCode
  | text => do
      let (digits, rest) ← readHexDigits flags width text
      let c ← readChar digits
      return (c, rest)

def namedEdge? (name : String) : Option Anchor :=
  if name = "start" then some .wordStart
  else if name = "end" then some .wordEnd
  else if name = "start-half" then some .wordStartHalf
  else if name = "end-half" then some .wordEndHalf
  else none

/-- The edge of a word, of the kind that stands in braces behind it. A brace without a name behind
it belongs to a repetition. -/
def readEdge (flags : Flags) (text : List Char) : Except PatternFault (Anchor × List Char) :=
  match text with
  | '\x7b' :: inside =>
      match flags.skip inside with
      | [] => .error .unclosedEdge
      | c :: rest =>
          if isNameChar c then
            let (name, rest) := flags.readWhile isNameChar (c :: rest).length (c :: rest)
            match rest with
            | '\x7d' :: rest =>
                match namedEdge? (String.ofList name) with
                | some place => .ok (place, rest)
                | none => .error .unknownEdge
            | _ => .error .unclosedEdge
          else .ok (.wordEdge, text)
  | _ => .ok (.wordEdge, text)
where
  isNameChar (c : Char) : Bool := c.isAlpha || c = '-'

def readEscape (flags : Flags) : List Char → Except PatternFault (Escape × List Char)
  | [] => .error .unclosedEscape
  | c :: rest =>
      if c.isDigit then .error .backReference
      else if c = 'p' || c = 'P' then .error .unicodeClass
      else if c = 'b' then (readEdge flags rest).map fun (place, rest) => (.anchor place, rest)
      else
        match codeWidth? c, letterEscape? c with
        | some width, _ => (readCode flags width rest).map fun (c, rest) => (.char c, rest)
        | none, some escape => .ok (escape, rest)
        | none, none =>
            if isEscapable c then .ok (.char c, rest) else .error .unknownEscape

def Flags.escapePattern (flags : Flags) : Escape → Pattern
  | .char c => flags.charPattern c
  | .cls cls => .char { classes := [cls] }
  | .anchor place => .anchor place

/-! ## Bracketed sets -/

inductive SetItem where
  | char (c : Char)
  | cls (cls : CharClass)

namespace SetItem

def toClass : SetItem → CharClass
  | .char c => .single c
  | .cls members => members

/-- A class is no end of a range. -/
def rangeTo : SetItem → SetItem → Except PatternFault CharClass
  | .char low, .char high =>
      if low ≤ high then .ok ⟨[(low, high)], false⟩ else .error .invertedRange
  | _, _ => .error .invalidSetItem

end SetItem

def readSetItem (flags : Flags) : List Char → Except PatternFault (SetItem × List Char)
  | [] => .error .unclosedSet
  | '\\' :: rest => do
      let (escape, rest) ← readEscape flags rest
      match escape with
      | .char c => return (.char c, rest)
      | .cls cls => return (.cls cls, rest)
      | .anchor _ => throw .invalidSetItem
  | c :: rest => .ok (.char c, rest)

/-- One item, or a range where a dash stands between two items. -/
def readSetRange (flags : Flags) (text : List Char) :
    Except PatternFault (CharClass × List Char) := do
  let (low, rest) ← readSetItem flags text
  match flags.skip rest with
  | [] => throw .unclosedSet
  | c :: rest =>
      let behind := flags.skip rest
      if c = '-' && behind.head? ≠ some ']' && behind.head? ≠ some '-' then
        let (high, rest) ← readSetItem flags behind
        let range ← low.rangeTo high
        return (range, rest)
      else return (low.toClass, c :: rest)

def namedRanges? (name : String) : Option (List (Char × Char)) :=
  if name = "alnum" then some [('0', '9'), ('A', 'Z'), ('a', 'z')]
  else if name = "alpha" then some [('A', 'Z'), ('a', 'z')]
  else if name = "ascii" then some [('\x00', '\x7F')]
  else if name = "blank" then some [('\t', '\t'), (' ', ' ')]
  else if name = "cntrl" then some [('\x00', '\x1F'), ('\x7F', '\x7F')]
  else if name = "digit" then some [('0', '9')]
  else if name = "graph" then some [('!', '~')]
  else if name = "lower" then some [('a', 'z')]
  else if name = "print" then some [(' ', '~')]
  else if name = "punct" then some [('!', '/'), (':', '@'), ('[', '\x60'), ('\x7b', '~')]
  else if name = "space" then some [('\t', '\r'), (' ', ' ')]
  else if name = "upper" then some [('A', 'Z')]
  else if name = "word" then some [('0', '9'), ('A', 'Z'), ('_', '_'), ('a', 'z')]
  else if name = "xdigit" then some [('0', '9'), ('A', 'F'), ('a', 'f')]
  else none

/-- A class by its name between colons, behind an inner bracket. -/
def readNamedClass? : List Char → Option (CharClass × List Char)
  | ':' :: text =>
      let negated := text.head? = some '^'
      let inside := if negated then text.tail else text
      match inside.dropWhile (· ≠ ':') with
      | ':' :: ']' :: rest =>
          (namedRanges? (String.ofList (inside.takeWhile (· ≠ ':')))).map
            fun ranges => (⟨ranges, negated⟩, rest)
      | _ => none
  | _ => none

/-- Two of these in a row are kept for operations on sets. -/
def isSetOperator (c : Char) : Bool := c = '&' || c = '-' || c = '~'

def readClasses (flags : Flags) :
    Nat → List Char → Except PatternFault (List CharClass × List Char)
  | 0, _ => .error .unclosedSet
  | fuel + 1, text =>
      match flags.skip text with
      | [] => .error .unclosedSet
      | ']' :: rest => .ok ([], rest)
      | '[' :: rest =>
          match readNamedClass? rest with
          | none => .error .nestedSet
          | some (cls, rest) => do
              let (classes, rest) ← readClasses flags fuel rest
              return (cls :: classes, rest)
      | c :: rest =>
          if isSetOperator c && rest.head? = some c then .error .setOperation
          else do
            let (cls, rest) ← readSetRange flags (c :: rest)
            let (classes, rest) ← readClasses flags fuel rest
            return (cls :: classes, rest)

/-- Dashes at the start stand for themselves, and so does a closing bracket at the very start. -/
def readSetStart (flags : Flags) (text : List Char) : List CharClass × List Char :=
  match flags.readWhile (· = '-') text.length text with
  | ([], ']' :: rest) => ([.single ']'], rest)
  | ([], text) => ([], text)
  | (_ :: _, rest) => ([.single '-'], rest)

def readSet (flags : Flags) (text : List Char) : Except PatternFault (CharSet × List Char) := do
  let text := flags.skip text
  let negated := text.head? = some '^'
  let inside := if negated then flags.skip text.tail else text
  let (leading, rest) := readSetStart flags inside
  let (classes, rest) ← readClasses flags rest.length rest
  return ({ classes := leading ++ classes, ignoresCase := flags.ignoresCase, negated }, rest)

/-! ## Repetitions -/

def maxCount : Nat := 0xFFFFFFFF

def readCount (flags : Flags) (text : List Char) : Except PatternFault (Nat × List Char) :=
  let text := text.dropWhile Text.isBlank
  let (digits, rest) := flags.readWhile Char.isDigit text.length text
  let count := Nat.ofDigitChars 10 digits 0
  if digits.isEmpty then .error .missingCount
  else if maxCount < count then .error .invalidCount
  else .ok (count, flags.skip (rest.dropWhile Text.isBlank))

/-- The number behind a comma, if there is one; without a comma it is the number in front. -/
def readMost (flags : Flags) (least : Nat) :
    List Char → Except PatternFault (Option Nat × List Char)
  | ',' :: rest =>
      match flags.skip rest with
      | '\x7d' :: rest => .ok (none, '\x7d' :: rest)
      | text => (readCount flags text).map fun (most, rest) => (some most, rest)
  | text => .ok (some least, text)

/-- A question mark behind a repetition asks for the shortest match, which is a match like any. -/
def skipLazyMark : List Char → List Char
  | '?' :: rest => rest
  | text => text

def readRepetition (flags : Flags) (text : List Char) :
    Except PatternFault (Repetition × List Char) := do
  let (least, rest) ← readCount flags (flags.skip text)
  let (most, rest) ← readMost flags least rest
  match rest with
  | '\x7d' :: rest =>
      if most.any (· < least) then throw .invertedCount
      else return (⟨least, most.map (· - least)⟩, skipLazyMark (flags.skip rest))
  | _ => throw .unclosedCount

/-! ## Tokens -/

inductive Token where
  | atom (pattern : Pattern)
  | opening (numbered : Bool) (name : Option String) (flags : Flags)
  | directive (flags : Flags)
  | closing
  | bar
  | repetition (times : Repetition)

def isNameStart (c : Char) : Bool := c = '_' || Text.isLetter c

def isNamePart (c : Char) : Bool :=
  c = '_' || c = '.' || c = '[' || c = ']' || Text.isLetter c || Text.isNumeric c

def isName : List Char → Bool
  | [] => true
  | c :: rest => isNameStart c && rest.all isNamePart

def readName (flags : Flags) (text : List Char) : Except PatternFault (Token × List Char) :=
  let name := text.takeWhile (· ≠ '>')
  if !isName name then .error .invalidName
  else
    match text.dropWhile (· ≠ '>') with
    | [] => .error .unclosedName
    | _ :: rest =>
        if name.isEmpty then .error .emptyName
        else .ok (.opening true (some (String.ofList name)) flags, rest)

def isFlagsEnd (c : Char) : Bool := c = ':' || c = ')'

/-- Flags to set and, behind a dash, to clear, each letter once. -/
def readFlags (seen : List Char) (value : Bool) (flags : Flags) :
    List Char → Except PatternFault (Flags × List Char)
  | [] => .error .unclosedFlags
  | c :: rest =>
      if isFlagsEnd c then .ok (flags, c :: rest)
      else if c = '-' then
        if !value then .error .repeatedNegation
        else if rest.head?.any isFlagsEnd then .error .danglingNegation
        else readFlags seen false flags rest
      else
        match flags.set? value c with
        | none => .error .unknownFlag
        | some flags =>
            if seen.contains c then .error .repeatedFlag else readFlags (c :: seen) value flags rest

/-- Flags for a group, or for all that stands behind them in the group around them. -/
def readFlagged (flags : Flags) (text : List Char) : Except PatternFault (Token × List Char) :=
  if text.head? = some ')' then .error .emptyFlags
  else do
    let (flags, rest) ← readFlags [] true flags text
    match rest with
    | ':' :: rest => return (.opening false none flags, rest)
    | rest => return (.directive flags, rest.tail)

def readOpening (flags : Flags) (text : List Char) : Except PatternFault (Token × List Char) :=
  match flags.skip text with
  | '?' :: '=' :: _ => .error .lookAround
  | '?' :: '!' :: _ => .error .lookAround
  | '?' :: '<' :: '=' :: _ => .error .lookAround
  | '?' :: '<' :: '!' :: _ => .error .lookAround
  | '?' :: '<' :: rest => readName flags rest
  | '?' :: 'P' :: '<' :: rest => readName flags rest
  | '?' :: rest => readFlagged flags rest
  | text => .ok (.opening true none flags, text)

def readToken (flags : Flags) (c : Char) (rest : List Char) :
    Except PatternFault (Token × List Char) :=
  match c with
  | '(' => readOpening flags rest
  | ')' => .ok (.closing, rest)
  | '|' => .ok (.bar, rest)
  | '[' => (readSet flags rest).map fun (set, rest) => (.atom (.char set), rest)
  | '?' => .ok (.repetition ⟨0, some 1⟩, skipLazyMark rest)
  | '*' => .ok (.repetition ⟨0, none⟩, skipLazyMark rest)
  | '+' => .ok (.repetition ⟨1, none⟩, skipLazyMark rest)
  | '\x7b' => (readRepetition flags rest).map fun (times, rest) => (.repetition times, rest)
  | '\\' => (readEscape flags rest).map fun (escape, rest) =>
      (.atom (flags.escapePattern escape), rest)
  | '.' => .ok (.atom flags.dotPattern, rest)
  | '^' => .ok (.atom (.anchor flags.startAnchor), rest)
  | '$' => .ok (.atom (.anchor flags.finishAnchor), rest)
  | c => .ok (.atom (flags.charPattern c), rest)

/-! ## Groups -/

/-- The deepest nesting of a pattern, and of groups in its text. -/
def maxNesting : Nat := 50

/-- The most patterns inside a pattern with its repetitions written out: 10 MiB at 32 bytes each. -/
def maxSize : Nat := 10 * (1 <<< 20) / 32

/-- An open group: the options that are complete and the parts of the last one, newest first. The
flags of the text around it are set again behind it. -/
structure Group where
  numbered : Bool := false
  flagsAround : Flags := {}
  options : List Pattern := []
  parts : List Pattern := []

namespace Group

def lastOption (group : Group) : Pattern := .ofParts group.parts.reverse

def content (group : Group) : Pattern := .ofOptions (group.lastOption :: group.options).reverse

/-- Only a numbered group is a level of its own. -/
def pattern (group : Group) : Pattern :=
  if group.numbered then .group group.content else group.content

def push (group : Group) (part : Pattern) : Group := { group with parts := part :: group.parts }

def nextOption (group : Group) : Group :=
  { group with options := group.lastOption :: group.options, parts := [] }

def repeatLast? (group : Group) (times : Repetition) : Option Group :=
  match group.parts with
  | [] => none
  | part :: parts => some { group with parts := .ofRepetition times part :: parts }

end Group

/-- The innermost open group and the groups around it, in order from the inside out. -/
structure Reading where
  flags : Flags := {}
  names : List String := []
  group : Group := {}
  outer : List Group := []

namespace Reading

def take (r : Reading) : Token → Except PatternFault Reading
  | .atom part => .ok { r with group := r.group.push part }
  | .opening numbered name flags =>
      if maxNesting ≤ r.outer.length then .error .tooDeep
      else if name.any r.names.contains then .error .repeatedName
      else
        .ok { flags, names := name.toList ++ r.names
              group := { numbered, flagsAround := r.flags }, outer := r.group :: r.outer }
  | .directive flags => .ok { r with flags }
  | .closing =>
      match r.outer with
      | [] => .error .unopenedGroup
      | next :: outer =>
          .ok { r with flags := r.group.flagsAround, group := next.push r.group.pattern, outer }
  | .bar => .ok { r with group := r.group.nextOption }
  | .repetition times =>
      match r.group.repeatLast? times with
      | none => .error .nothingRepeated
      | some group => .ok { r with group }

def finish (r : Reading) : Except PatternFault Pattern :=
  if r.outer.isEmpty then .ok r.group.pattern else .error .unclosedGroup

/-- Every token takes at least one character, so the length of the text is fuel enough. -/
def run (fuel : Nat) (r : Reading) (text : List Char) : Except PatternFault Pattern :=
  match fuel, r.flags.skip text with
  | _, [] => r.finish
  | 0, _ :: _ => .error .tooLarge
  | fuel + 1, c :: rest => do
      let (token, rest) ← readToken r.flags c rest
      let next ← r.take token
      run fuel next rest

end Reading

def ofText (text : String) : Except PatternFault Pattern := do
  let pattern ← Reading.run text.length {} text.toList
  if maxNesting < pattern.nesting then throw .tooDeep
  else if maxSize < pattern.size then throw .tooLarge
  else return pattern

end MethodSynthesis.Pattern
