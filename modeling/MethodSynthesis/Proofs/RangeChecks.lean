import MethodSynthesis.Proofs.IntegerRounding
import MethodSynthesis.Item.Validation

/-!
# What the range check decides

Bounds are exact numbers and so are integers, but the check compares nearest floats. It therefore
decides for a float whether it lies between the floats nearest to the bounds; not-a-number passes.
For an integer that is the question itself where all bounds have at most 53 bits before the point.
-/

namespace MethodSynthesis

namespace Value

/-- An integer as its nearest float, any other value as it is. -/
def widened : Value → Value
  | .int i => .float (.ofInt i.toInt)
  | v => v

theorem exists_widened {v : Value} (h : v.exactUnits? ≠ none) :
    ∃ x, v.number? = some x ∧ v.widened = .float x ∧ x ≠ .nan := by
  cases v with
  | int i => exact ⟨_, rfl, rfl, Binary64.ofInt_ne_nan _⟩
  | float x => exact ⟨x, rfl, rfl, mt Binary64.exactUnits?_eq_none_iff.mpr h⟩
  | _ => exact absurd rfl h

end Value

namespace ItemDefinition

variable {d : ItemDefinition}

def widened (d : ItemDefinition) : ItemDefinition :=
  { d with min := d.min.map Value.widened, max := d.max.map Value.widened }

/-- A bound is declared, and every declared bound is a number. -/
structure HasNumericBounds (d : ItemDefinition) : Prop where
  declared : d.min ≠ none ∨ d.max ≠ none
  min_number : ∀ low ∈ d.min, low.exactUnits? ≠ none
  max_number : ∀ high ∈ d.max, high.exactUnits? ≠ none

/-- The value is null, a text, or a number between the declared bounds. -/
def Within (d : ItemDefinition) : Value → Prop
  | .null => True
  | .string _ => True
  | .bool _ => False
  | v => (∀ low ∈ d.min, low.AtMost v) ∧ ∀ high ∈ d.max, v.AtMost high

theorem within_int {i : Int64} : d.Within (.int i) ↔
    (∀ low ∈ d.min, low.AtMost (.int i)) ∧ ∀ high ∈ d.max, (Value.int i).AtMost high := Iff.rfl

theorem within_float {x : Binary64} : d.Within (.float x) ↔
    (∀ low ∈ d.min, low.AtMost (.float x)) ∧ ∀ high ∈ d.max, (Value.float x).AtMost high := Iff.rfl

instance (d : ItemDefinition) : DecidablePred d.Within
  | .null => isTrue trivial
  | .bool _ => isFalse id
  | .int _ => decidable_of_iff _ within_int.symm
  | .float _ => decidable_of_iff _ within_float.symm
  | .string _ => isTrue trivial

theorem Within.of_equals {v w : Value} (h : v.equals w = true) (hw : d.Within w) : d.Within v := by
  have hexact := Value.exactUnits?_eq_of_equals h
  cases v <;> cases w <;> simp_all [Value.equals, Within, Value.AtMost]

theorem not_within_nan (h : d.HasNumericBounds) : ¬ d.Within (.float .nan) := by
  rintro ⟨hmin, hmax⟩
  rcases h.declared with hdeclared | hdeclared
  · obtain ⟨low, hlow⟩ := Option.ne_none_iff_exists'.mp hdeclared
    obtain ⟨a, b, -, hnan, -⟩ := hmin low hlow
    cases hnan
  · obtain ⟨high, hhigh⟩ := Option.ne_none_iff_exists'.mp hdeclared
    obtain ⟨a, b, hnan, -, -⟩ := hmax high hhigh
    cases hnan

theorem violation?_eq_none_iff {x : Binary64} :
    d.violation? x = none ↔
      (∀ low, bound? d.min = some low → x.less low = false) ∧
        ∀ high, bound? d.max = some high → high.less x = false := by
  simp only [violation?, below?, above?, Option.or_eq_none_iff]
  cases bound? d.min <;> cases bound? d.max <;> simp

theorem violation?_nan (d : ItemDefinition) : d.violation? .nan = none := by
  rw [violation?_eq_none_iff]
  have hless (x : Binary64) : x.less .nan = false := by cases x <;> rfl
  exact ⟨fun _ _ => rfl, fun high _ => hless high⟩

theorem widened_within_float {x : Binary64} : d.widened.Within (.float x) ↔
    (∀ low ∈ d.min, low.widened.AtMost (.float x)) ∧
      ∀ high ∈ d.max, (Value.float x).AtMost high.widened := by
  rw [within_float]
  simp only [widened]
  cases d.min <;> cases d.max <;> simp

/-- The check decides for a number whether it lies between the floats nearest to the bounds. -/
theorem violation?_eq_none_iff_within (bounds : d.HasNumericBounds) {x : Binary64}
    (hx : x ≠ .nan) : d.violation? x = none ↔ d.widened.Within (.float x) := by
  have hlow : (∀ low, bound? d.min = some low → x.less low = false) ↔
      ∀ low ∈ d.min, low.widened.AtMost (.float x) := by
    cases hmin : d.min with
    | none => simp [bound?]
    | some low =>
        obtain ⟨y, hy, hwidened, hnan⟩ := Value.exists_widened (bounds.min_number low hmin)
        simp [bound?, hy, hwidened, Value.atMost_float_iff hnan hx]
  have hhigh : (∀ high, bound? d.max = some high → high.less x = false) ↔
      ∀ high ∈ d.max, (Value.float x).AtMost high.widened := by
    cases hmax : d.max with
    | none => simp [bound?]
    | some high =>
        obtain ⟨y, hy, hwidened, hnan⟩ := Value.exists_widened (bounds.max_number high hmax)
        simp [bound?, hy, hwidened, Value.atMost_float_iff hx hnan]
  rw [violation?_eq_none_iff, hlow, hhigh, widened_within_float]

/-! ## Bounds and rounding -/

/-- An integer outside the bounds has its nearest float outside the floats nearest to them. -/
def RoundingIsHarmless (d : ItemDefinition) : Prop :=
  ∀ i : Int64, d.widened.Within (.float (.ofInt i.toInt)) → d.Within (.int i)

def HasExactBounds (d : ItemDefinition) : Prop :=
  ∀ bound, bound ∈ d.min ∨ bound ∈ d.max → bound.widened.exactUnits? = bound.exactUnits?

/-- Every declared bound is a number of at most 53 bits before the point. -/
def HasSmallBounds (d : ItemDefinition) : Prop :=
  ∀ bound, bound ∈ d.min ∨ bound ∈ d.max →
    ∃ limit, bound.exactUnits? = some limit ∧ limit.natAbs < 2 ^ 53 * Magnitude.unitsPerOne

theorem within_of_widened (hexact : d.HasExactBounds) {x : Binary64}
    (h : d.widened.Within (.float x)) : d.Within (.float x) := by
  obtain ⟨hlow, hhigh⟩ := widened_within_float.mp h
  refine within_float.mpr ⟨fun low hmin => ?_, fun high hmax => ?_⟩
  · obtain ⟨a, b, ha, hb, hle⟩ := hlow low hmin
    exact ⟨a, b, hexact low (Or.inl hmin) ▸ ha, hb, hle⟩
  · obtain ⟨a, b, ha, hb, hle⟩ := hhigh high hmax
    exact ⟨a, b, ha, hexact high (Or.inr hmax) ▸ hb, hle⟩

theorem exactBounds_of_small (hsmall : d.HasSmallBounds) : d.HasExactBounds := by
  intro bound hbound
  obtain ⟨limit, hlimit, hlt⟩ := hsmall bound hbound
  cases bound with
  | int i =>
      obtain rfl : i.toInt * Magnitude.unitsPerOne = limit := Option.some.inj hlimit
      rw [Int.natAbs_mul, Int.natAbs_natCast] at hlt
      have hi : i.toInt.natAbs < 2 ^ 53 := Nat.lt_of_mul_lt_mul_right hlt
      exact (Binary64.exactUnits?_ofInt _).trans
        (congrArg some (Binary64.integerUnits_of_small (Nat.le_of_lt hi)))
  | _ => rfl

/-- Rounding carries no integer over a bound of at most 53 bits before the point. -/
theorem roundingIsHarmless_of_small (hsmall : d.HasSmallBounds) : d.RoundingIsHarmless := by
  intro i hwidened
  obtain ⟨hlow, hhigh⟩ := within_float.mp (within_of_widened (exactBounds_of_small hsmall) hwidened)
  have hfloat : (Value.float (.ofInt i.toInt)).exactUnits? = some (Binary64.integerUnits i.toInt) :=
    Binary64.exactUnits?_ofInt i.toInt
  have hint : (Value.int i).exactUnits? = some (i.toInt * Magnitude.unitsPerOne) := rfl
  refine within_int.mpr ⟨fun low hmin => ?_, fun high hmax => ?_⟩
  · obtain ⟨limit, hlimit, hlt⟩ := hsmall low (Or.inl hmin)
    have hle := (Value.atMost_iff hlimit hfloat).mp (hlow low hmin)
    refine (Value.atMost_iff hlimit hint).mpr (Int.not_lt.mp fun hbelow => ?_)
    exact Int.not_lt.mpr hle (Binary64.integerUnits_lt hlt hbelow)
  · obtain ⟨limit, hlimit, hlt⟩ := hsmall high (Or.inr hmax)
    have hle := (Value.atMost_iff hfloat hlimit).mp (hhigh high hmax)
    refine (Value.atMost_iff hint hlimit).mpr (Int.not_lt.mp fun habove => ?_)
    exact Int.not_lt.mpr hle (Binary64.lt_integerUnits hlt habove)

end ItemDefinition

end MethodSynthesis
