/-!
# Binary64 numbers

A finite number is a sign and a magnitude, and a magnitude is its place in the increasing list of
all finite magnitudes. Comparison is therefore comparison of places, and the place determines the
exact value: a significand times a power of two, counted in units of 2^-1074.
-/

namespace MethodSynthesis

/-- A finite nonnegative binary64 number, named by its place in increasing order from zero. -/
structure Magnitude where
  rank : Nat
  rank_lt : rank < 2047 * (1 <<< 52)
  deriving DecidableEq

namespace Magnitude

/-- The place just behind the last finite magnitude. -/
def count : Nat := 2047 * (1 <<< 52)

def zero : Magnitude := ⟨0, by decide⟩

def ofRank? (rank : Nat) : Option Magnitude :=
  if h : rank < 2047 * (1 <<< 52) then some ⟨rank, h⟩ else none

/-- Each run of 2^52 places shares a spacing; the first two runs share the finest one. -/
def binade (m : Magnitude) : Nat := m.rank / (1 <<< 52)

def significand (m : Magnitude) : Nat :=
  if m.binade = 0 then m.rank else (1 <<< 52) + m.rank % (1 <<< 52)

/-- The spacing of the run is 2^shift units. -/
def shift (m : Magnitude) : Nat := m.binade - 1

/-- The exact value in units of 2^-1074. -/
def units (m : Magnitude) : Nat := m.significand <<< m.shift

def signedUnits (m : Magnitude) (negative : Bool) : Int :=
  if negative then -(m.units : Int) else m.units

def unitsPerOne : Nat := 1 <<< 1074

end Magnitude

/-- A binary64 number; all not-a-number words are one value. -/
inductive Binary64 where
  | nan
  | infinity (negative : Bool)
  | finite (negative : Bool) (magnitude : Magnitude)
  deriving DecidableEq

namespace Binary64

def zero : Binary64 := .finite false .zero

/-- The place on the signed scale: both zeros share place 0, not-a-number has none. -/
def place? : Binary64 → Option Int
  | .nan => none
  | .infinity negative => some (if negative then -Magnitude.count else Magnitude.count)
  | .finite negative m => some (if negative then -m.rank else m.rank)

/-- Not-a-number compares false with everything. -/
def less (x y : Binary64) : Bool :=
  match x.place?, y.place? with
  | some a, some b => decide (a < b)
  | _, _ => false

/-- Numeric equality: the zeros are equal, and not-a-number differs from itself. -/
def equals (x y : Binary64) : Bool :=
  match x.place?, y.place? with
  | some a, some b => decide (a = b)
  | _, _ => false

def isNaN : Binary64 → Bool
  | .nan => true
  | _ => false

def isFinite : Binary64 → Bool
  | .finite _ _ => true
  | _ => false

/-- The exact value of a finite number in units of 2^-1074. -/
def units? : Binary64 → Option Int
  | .finite negative m => some (m.signedUnits negative)
  | _ => none

@[simp] theorem equals_nan_left (y : Binary64) : equals .nan y = false := rfl

theorem equals_self (x : Binary64) : x.equals x = !x.isNaN := by
  cases x <;> simp [equals, place?, isNaN]

theorem equals_comm (x y : Binary64) : x.equals y = y.equals x := by
  unfold equals
  cases x.place? <;> cases y.place? <;> simp [eq_comm]

theorem place?_eq_of_equals {x y : Binary64} (h : x.equals y = true) : x.place? = y.place? := by
  unfold equals at h
  split at h
  · rename_i hx hy
    rw [hx, hy, of_decide_eq_true h]
  · cases h

theorem equals_congr {x y : Binary64} (h : x.equals y = true) (z : Binary64) :
    z.equals x = z.equals y := by
  unfold equals
  rw [place?_eq_of_equals h]

end Binary64

end MethodSynthesis
