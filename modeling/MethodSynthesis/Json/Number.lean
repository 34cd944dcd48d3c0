import MethodSynthesis.Binary64.Text

/-!
# JSON numbers

A number literal is kept as its parts. Its binary64 meaning is that of a reader with a 64-bit
significand: digits are collected while they fit, later digits of the whole part are only counted,
later digits of the fraction are dropped, and the power of ten is applied by one rounded
multiplication or division, or by two divisions below 10^-308.
-/

namespace MethodSynthesis

/-- The parts of a number literal; a literal without point and exponent is an integer. -/
structure NumberLiteral where
  negative : Bool
  whole : List Char
  fraction : Option (List Char)
  exponent : Option Int
  deriving DecidableEq

namespace NumberLiteral

/-! ## Writing -/

/-- The exponent with its sign always shown. -/
def exponentChars (exponent : Int) : List Char :=
  'e' :: (if exponent < 0 then '-' else '+') :: Nat.toDigits 10 exponent.natAbs

def toChars (n : NumberLiteral) : List Char :=
  Binary64.signText n.negative ++ n.whole ++
    (match n.fraction with
      | none => []
      | some digits => '.' :: digits) ++
    (match n.exponent with
      | none => []
      | some exponent => exponentChars exponent)

def ofInt (i : Int) : NumberLiteral :=
  ⟨i < 0, Nat.toDigits 10 i.natAbs, none, none⟩

/-- Ties between two shortest decimals go to the even digit. -/
def tie : TieRule := .toEven

/-- The powers of the first digit that are written in positional notation. -/
def isPositional (power : Int) : Bool := -5 ≤ power && power ≤ 15

/-- The shortest digits, positional with at least one digit behind the point, or scientific with
one digit before it. -/
def ofMagnitude (negative : Bool) (m : Magnitude) : NumberLiteral :=
  let d := m.shortest tie
  let power := d.point - 1
  if d.coefficient = 0 || isPositional power then
    let (whole, fraction) := d.positional
    ⟨negative, whole, some (if fraction.isEmpty then ['0'] else fraction), none⟩
  else
    let fraction := d.digits.drop 1
    ⟨negative, d.digits.take 1, if fraction.isEmpty then none else some fraction, some power⟩

/-! ## Reading -/

def readDigits? (text : List Char) : Option (List Char × List Char) :=
  let (digits, rest) := spanDigits text
  if digits.isEmpty then none else some (digits, rest)

def readSign (text : List Char) : Bool × List Char :=
  match text with
  | [] => (false, [])
  | c :: rest => if c = '-' then (true, rest) else (false, c :: rest)

/-- One zero, or digits that start with another one. -/
def readWhole? (text : List Char) : Option (List Char × List Char) :=
  match readDigits? text with
  | none => none
  | some (digits, rest) =>
      if digits.head? = some '0' && 1 < digits.length then none else some (digits, rest)

/-- A point must be followed by a digit. -/
def readFraction? (text : List Char) : Option (Option (List Char) × List Char) :=
  match text with
  | [] => some (none, [])
  | c :: rest =>
      if c = '.' then (readDigits? rest).map fun (digits, rest) => (some digits, rest)
      else some (none, c :: rest)

def readExponentSign (text : List Char) : Bool × List Char :=
  match text with
  | [] => (false, [])
  | c :: rest =>
      if c = '-' then (true, rest)
      else if c = '+' then (false, rest)
      else (false, c :: rest)

/-- An exponent mark must be followed by a digit, perhaps behind a sign. -/
def readExponent? (text : List Char) : Option (Option Int × List Char) :=
  match text with
  | [] => some (none, [])
  | c :: rest =>
      if c = 'e' || c = 'E' then
        let (negative, rest) := readExponentSign rest
        (readDigits? rest).map fun (digits, rest) =>
          let size : Int := Nat.ofDigitChars 10 digits 0
          (some (if negative then -size else size), rest)
      else some (none, c :: rest)

def read? (text : List Char) : Option (NumberLiteral × List Char) := do
  let (negative, rest) := readSign text
  let (whole, rest) ← readWhole? rest
  let (fraction, rest) ← readFraction? rest
  let (exponent, rest) ← readExponent? rest
  some (⟨negative, whole, fraction, exponent⟩, rest)

/-! ## Meaning -/

def size? (n : NumberLiteral) : Option Nat :=
  match n.fraction, n.exponent with
  | none, none => some (Nat.ofDigitChars 10 n.whole 0)
  | _, _ => none

/-- An integer literal that fits a signed 64-bit word; minus zero is not one. -/
def int64? (n : NumberLiteral) : Option Int64 :=
  match n.size? with
  | none => none
  | some size =>
      if n.negative then
        if 0 < size && size ≤ 1 <<< 63 then some (Int64.ofInt (-size)) else none
      else if size < 1 <<< 63 then some (Int64.ofNat size)
      else none

def index? (n : NumberLiteral) : Option Nat :=
  match n.size? with
  | none => none
  | some size => if !n.negative && size < UInt64.size then some size else none

/-- Appends digits to a significand while it fits 64 bits; the digits that do not are returned. -/
def collect (significand : Nat) : List Char → Nat × List Char
  | [] => (significand, [])
  | c :: rest =>
      let next := significand * 10 + (c.toNat - '0'.toNat)
      if next < UInt64.size then collect next rest else (significand, c :: rest)

/-- The greatest power of ten that is applied in one step. -/
def powerLimit : Nat := 308

def powerOfTen? (k : Nat) : Option Magnitude := Magnitude.ofNat? (Nat.pow 10 k)

def divideByPower? (m : Magnitude) (k : Nat) : Option Magnitude := do
  let power ← powerOfTen? k
  m.div? power

/-- A 64-bit significand times a power of ten, each step rounded; none when it is too large. -/
def scale? (significand : Nat) (exponent : Int) : Option Magnitude := do
  let m ← Magnitude.ofNat? significand
  let k := exponent.natAbs
  if 0 ≤ exponent then
    if k ≤ powerLimit then do
      let power ← powerOfTen? k
      m.mul? power
    else if significand = 0 then some .zero
    else none
  else if k ≤ powerLimit then divideByPower? m k
  else if k ≤ 2 * powerLimit then do
    let m ← divideByPower? m powerLimit
    divideByPower? m (k - powerLimit)
  else some .zero

/-- The binary64 number the literal is read as; none when it is too large to be finite. -/
def binary64? (n : NumberLiteral) : Option Binary64 :=
  let fraction := n.fraction.getD []
  let (significand, counted) := collect 0 n.whole
  let (significand, dropped) := collect significand fraction
  let taken : Int := fraction.length - dropped.length
  (scale? significand (n.exponent.getD 0 + counted.length - taken)).map (Binary64.finite n.negative)

end NumberLiteral

end MethodSynthesis
