import MethodSynthesis.Binary64.Basic

/-!
# Rounding to binary64

Every rounded result here is the magnitude nearest to an exact ratio, a tie going to the even
significand. Widening an integer, reading a decimal and the operations all pass through it.
-/

namespace MethodSynthesis

/-- The integer nearest to a ratio, a tie going to the even one. -/
def divNearestEven (numerator denominator : Nat) : Nat :=
  let quotient := numerator / denominator
  let rest := numerator % denominator
  if 2 * rest < denominator then quotient
  else if denominator < 2 * rest then quotient + 1
  else quotient + quotient % 2

namespace Magnitude

/-- How far the spacing must grow so that a value of so many whole units keeps 53 bits. -/
def shiftFor (units : Nat) : Nat := units.log2 - 52

/-- The magnitude nearest to a ratio of units, or none beyond the finite ones.

A significand that rounds up to 2^53 needs no care: its place is that of the next run's first. -/
def nearest? (numerator denominator : Nat) : Option Magnitude :=
  let shift := shiftFor (numerator / denominator)
  let significand := divNearestEven numerator (denominator <<< shift)
  ofRank? (shift * (1 <<< 52) + significand)

def ofNat? (n : Nat) : Option Magnitude := nearest? (n * unitsPerOne) 1

def mul? (x y : Magnitude) : Option Magnitude := nearest? (x.units * y.units) unitsPerOne

def div? (x y : Magnitude) : Option Magnitude :=
  nearest? (x.units * unitsPerOne) y.units

end Magnitude

namespace Binary64

/-- A rounded magnitude with its sign; what has no finite magnitude is infinite. -/
def ofMagnitude? (negative : Bool) : Option Magnitude → Binary64
  | some m => .finite negative m
  | none => .infinity negative

def ofInt (i : Int) : Binary64 := ofMagnitude? (i < 0) (Magnitude.ofNat? i.natAbs)

/-- The absolute value of the rounded difference. -/
def distance (x y : Binary64) : Binary64 :=
  match x, y with
  | .nan, _ => .nan
  | _, .nan => .nan
  | .infinity a, .infinity b => if a = b then .nan else .infinity false
  | .infinity _, _ => .infinity false
  | _, .infinity _ => .infinity false
  | .finite a m, .finite b n =>
      let exact := m.signedUnits a - n.signedUnits b
      ofMagnitude? false (Magnitude.nearest? exact.natAbs 1)

/-- The gap between one and the next larger number, 2^-52. -/
def epsilon : Binary64 := ofMagnitude? false (Magnitude.nearest? (1 <<< 1022) 1)

end Binary64

end MethodSynthesis
