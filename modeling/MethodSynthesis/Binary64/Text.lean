import MethodSynthesis.Binary64.Shortest

/-!
# Plain number texts

A number is written in positional notation whatever its size: no exponent, no trailing point, and
the sign of zero kept. Reading accepts the written form and exponents as well.
-/

namespace MethodSynthesis

namespace Binary64

def signText (negative : Bool) : List Char := if negative then ['-'] else []

/-- Ties between two shortest decimals go up. -/
def plainTie : TieRule := .up

/-- The shortest digits that read back, without an exponent. -/
def toChars : Binary64 → List Char
  | .nan => "NaN".toList
  | .infinity negative => signText negative ++ "inf".toList
  | .finite negative m =>
      let (whole, fraction) := (m.shortest plainTie).positional
      signText negative ++ whole ++ (if fraction.isEmpty then [] else '.' :: fraction)

def toText (x : Binary64) : String := String.ofList x.toChars

/-- The number nearest to a decimal of any size: far outside the range it is zero or infinite. -/
def ofDecimal (negative : Bool) (d : Decimal) : Binary64 :=
  let top : Int := (Nat.toDigits 10 d.coefficient).length + d.exponent
  if d.coefficient = 0 ∨ top < -330 then .finite negative .zero
  else if 310 < top then .infinity negative
  else ofMagnitude? negative d.nearest?

end Binary64

def spanDigits (text : List Char) : List Char × List Char :=
  (text.takeWhile Char.isDigit, text.dropWhile Char.isDigit)

namespace Decimal

def readExponent? (text : List Char) : Option Int :=
  let (negative, rest) : Bool × List Char :=
    match text with
    | '-' :: rest => (true, rest)
    | '+' :: rest => (false, rest)
    | rest => (false, rest)
  if rest.isEmpty || !rest.all Char.isDigit then none
  else
    let size : Int := Nat.ofDigitChars 10 rest 0
    some (if negative then -size else size)

def ofChars? (text : List Char) : Option Decimal :=
  let (whole, rest) := spanDigits text
  let (fraction, rest) : List Char × List Char :=
    match rest with
    | '.' :: rest => spanDigits rest
    | rest => ([], rest)
  let exponent? : Option Int :=
    match rest with
    | [] => some 0
    | c :: rest => if c = 'e' ∨ c = 'E' then readExponent? rest else none
  match exponent? with
  | none => none
  | some exponent =>
      if whole.isEmpty && fraction.isEmpty then none
      else some ⟨Nat.ofDigitChars 10 (whole ++ fraction) 0, exponent - fraction.length⟩

end Decimal

namespace Binary64

def ofUnsignedChars? (negative : Bool) (text : List Char) : Option Binary64 :=
  if text = "inf".toList then some (.infinity negative)
  else if text = "NaN".toList then some .nan
  else (Decimal.ofChars? text).map (ofDecimal negative)

/-- Reads a decimal, an infinity or not-a-number, rounding to the nearest number. -/
def ofText? (text : String) : Option Binary64 :=
  match text.toList with
  | '-' :: rest => ofUnsignedChars? true rest
  | '+' :: rest => ofUnsignedChars? false rest
  | rest => ofUnsignedChars? false rest

end Binary64

end MethodSynthesis
