/-!
# JSON strings

A string is written between quotes with a short escape where there is one and a numeric escape for
the other control characters. Reading is done in two steps, because a text may be skipped without
being meaningful: first the pieces between the quotes, then the characters they spell, where a
surrogate must be followed by its partner.
-/

namespace MethodSynthesis.Json

/-! ## Writing -/

def hexDigit (n : Nat) : Char := Nat.digitChar (n % 16)

def escapeLetter? (c : Char) : Option Char :=
  if c = '"' then some '"'
  else if c = '\\' then some '\\'
  else if c.toNat = 8 then some 'b'
  else if c.toNat = 12 then some 'f'
  else if c = '\n' then some 'n'
  else if c = '\r' then some 'r'
  else if c = '\t' then some 't'
  else none

def escapeChar (c : Char) : List Char :=
  match escapeLetter? c with
  | some letter => ['\\', letter]
  | none =>
      if c.toNat < 32 then ['\\', 'u', '0', '0', hexDigit (c.toNat / 16), hexDigit c.toNat]
      else [c]

def quoted (text : List Char) : List Char :=
  '"' :: text.flatMap escapeChar ++ ['"']

/-! ## Reading -/

/-- What one character or escape of a string stands for. -/
inductive Piece where
  | scalar (c : Char)
  | surrogate (code : Nat)
  deriving DecidableEq

def hexValue? (c : Char) : Option Nat :=
  if c.isDigit then some (c.toNat - '0'.toNat)
  else if 'a' ≤ c ∧ c ≤ 'f' then some (c.toNat - 'a'.toNat + 10)
  else if 'A' ≤ c ∧ c ≤ 'F' then some (c.toNat - 'A'.toNat + 10)
  else none

def hexCode? (a b c d : Char) : Option Nat := do
  let a ← hexValue? a
  let b ← hexValue? b
  let c ← hexValue? c
  let d ← hexValue? d
  some (((a * 16 + b) * 16 + c) * 16 + d)

def Piece.ofCode (code : Nat) : Piece :=
  if 0xD800 ≤ code ∧ code < 0xE000 then .surrogate code else .scalar (Char.ofNat code)

def escapedChar? (letter : Char) : Option Char :=
  if letter = '"' then some '"'
  else if letter = '\\' then some '\\'
  else if letter = '/' then some '/'
  else if letter = 'b' then some (Char.ofNat 8)
  else if letter = 'f' then some (Char.ofNat 12)
  else if letter = 'n' then some '\n'
  else if letter = 'r' then some '\r'
  else if letter = 't' then some '\t'
  else none

def readPieces? : List Char → Option (List Piece × List Char)
  | [] => none
  | c :: rest =>
      if c = '"' then some ([], rest)
      else if c = '\\' then
        match rest with
        | [] => none
        | letter :: rest =>
            if letter = 'u' then
              match rest with
              | a :: b :: c :: d :: rest =>
                  match hexCode? a b c d, readPieces? rest with
                  | some code, some (pieces, rest) => some (Piece.ofCode code :: pieces, rest)
                  | _, _ => none
              | _ => none
            else
              match escapedChar? letter, readPieces? rest with
              | some c, some (pieces, rest) => some (.scalar c :: pieces, rest)
              | _, _ => none
      else if c.toNat < 32 then none
      else
        match readPieces? rest with
        | some (pieces, rest) => some (.scalar c :: pieces, rest)
        | none => none

def surrogatePair? (high low : Nat) : Option Char :=
  if 0xD800 ≤ high ∧ high < 0xDC00 ∧ 0xDC00 ≤ low ∧ low < 0xE000 then
    some (Char.ofNat (0x10000 + (high - 0xD800) * 0x400 + (low - 0xDC00)))
  else none

/-- The characters spelled by the pieces; none when a surrogate stands without its partner. -/
def spell? : List Piece → Option (List Char)
  | [] => some []
  | .scalar c :: pieces => (spell? pieces).map (c :: ·)
  | .surrogate _ :: [] => none
  | .surrogate _ :: .scalar _ :: _ => none
  | .surrogate high :: .surrogate low :: pieces =>
      match surrogatePair? high low, spell? pieces with
      | some c, some text => some (c :: text)
      | _, _ => none

/-- What stands behind an opening quote: the string, if its pieces spell one, and the rest. -/
def readQuoted? (text : List Char) : Option (Option String × List Char) :=
  (readPieces? text).map fun (pieces, rest) => ((spell? pieces).map String.ofList, rest)

end MethodSynthesis.Json
