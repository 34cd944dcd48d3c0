import MethodSynthesis.Binary64.Rounding

/-!
# Shortest decimals

A magnitude has a finite exact decimal expansion. The shortest decimal is found by dropping as many
trailing digits of that expansion as possible while the decimal just below or just above still reads
back as the magnitude. Dropping none always reads back, so the search needs no bound.
-/

namespace MethodSynthesis

/-- The number coefficient · 10^exponent. -/
structure Decimal where
  coefficient : Nat
  exponent : Int
  deriving DecidableEq

namespace Decimal

def nearest? (d : Decimal) : Option Magnitude :=
  if 0 ≤ d.exponent then
    Magnitude.nearest? (d.coefficient * Nat.pow 10 d.exponent.toNat * Magnitude.unitsPerOne) 1
  else
    Magnitude.nearest? (d.coefficient * Magnitude.unitsPerOne) (Nat.pow 10 (-d.exponent).toNat)

def readsAs (d : Decimal) (m : Magnitude) : Bool := d.nearest? = some m

end Decimal

/-- Which neighbour stands for a magnitude halfway between two equally short decimals. -/
inductive TieRule where
  | up
  | toEven
  deriving DecidableEq

namespace TieRule

def takesLower (rule : TieRule) (lower : Nat) : Bool :=
  match rule with
  | .up => false
  | .toEven => lower % 2 = 0

end TieRule

namespace Magnitude

/-- The exact value as a decimal: k binary places behind the point are k decimal places. -/
def exactDecimal (m : Magnitude) : Decimal :=
  if 1074 ≤ m.shift then ⟨m.significand <<< (m.shift - 1074), 0⟩
  else ⟨m.significand * Nat.pow 5 (1074 - m.shift), -((1074 - m.shift : Nat) : Int)⟩

/-- The decimal with the most trailing digits dropped, at most the given number of them. -/
def shortestDropping (rule : TieRule) (m : Magnitude) (exact : Decimal) : Nat → Decimal
  | 0 => exact
  | dropped + 1 =>
      let unit := Nat.pow 10 (dropped + 1)
      let exponent := exact.exponent + ((dropped + 1 : Nat) : Int)
      let lower : Decimal := ⟨exact.coefficient / unit, exponent⟩
      let upper : Decimal := ⟨exact.coefficient / unit + 1, exponent⟩
      let rest := exact.coefficient % unit
      match lower.readsAs m, upper.readsAs m with
      | true, true =>
          if 2 * rest < unit then lower
          else if unit < 2 * rest then upper
          else if rule.takesLower lower.coefficient then lower
          else upper
      | true, false => lower
      | false, true => upper
      | false, false => shortestDropping rule m exact dropped

/-- The decimal of fewest digits that reads back, the nearest of those. -/
def shortest (rule : TieRule) (m : Magnitude) : Decimal :=
  let exact := m.exactDecimal
  shortestDropping rule m exact ((Nat.toDigits 10 exact.coefficient).length - 1)

end Magnitude

namespace Decimal

/-- The digits without the zeros at the end, which only move the point. -/
def digits (d : Decimal) : List Char :=
  match ((Nat.toDigits 10 d.coefficient).reverse.dropWhile (· == '0')).reverse with
  | [] => ['0']
  | digits => digits

/-- How many digits stand before the point; zero and below means leading zeros behind it. -/
def point (d : Decimal) : Int :=
  (Nat.toDigits 10 d.coefficient).length + d.exponent

def positional (d : Decimal) : List Char × List Char :=
  if d.coefficient = 0 then (['0'], [])
  else if d.point ≤ 0 then
    (['0'], List.replicate (-d.point).toNat '0' ++ d.digits)
  else
    let point := d.point.toNat
    (d.digits.take point ++ List.replicate (point - d.digits.length) '0', d.digits.drop point)

end Decimal

end MethodSynthesis
