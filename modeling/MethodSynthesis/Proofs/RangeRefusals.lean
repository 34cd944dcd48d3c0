import MethodSynthesis.Proofs.RangeChecks

/-!
# What the range check refuses

The check compares nearest floats. Rounding keeps the order, so what is refused lies outside the
bounds as an exact number. What lies outside may pass, though: an integer passes beyond an integer
bound whose nearest float is its own. There is no such integer where those next to the bounds have
other floats, as they have up to 2^53.
-/

namespace MethodSynthesis

/-! ## Refused values -/

namespace Value

def Below (v w : Value) : Prop :=
  ∃ a b, v.exactUnits? = some a ∧ w.exactUnits? = some b ∧ a < b

theorem exactUnits?_of_number? {v : Value} {x : Binary64} {a : Int} (hx : v.number? = some x)
    (ha : v.exactUnits? = some a) : x.exactUnits? = some (Binary64.roundedUnits a) := by
  cases v with
  | int i =>
      obtain rfl : Binary64.ofInt i.toInt = x := Option.some.inj hx
      obtain rfl : i.toInt * Magnitude.unitsPerOne = a := Option.some.inj ha
      rw [Binary64.exactUnits?_ofInt, Binary64.integerUnits_eq_roundedUnits]
  | float y =>
      obtain rfl : y = x := Option.some.inj hx
      have hy : y.exactUnits? = some a := ha
      rw [hy, Binary64.roundedUnits_exactUnits? hy]
  | _ => cases hx

theorem exists_exactUnits?_of_number? {v : Value} {x : Binary64} {b : Int}
    (hx : v.number? = some x) (hb : x.exactUnits? = some b) : ∃ a, v.exactUnits? = some a := by
  cases v with
  | int i => exact ⟨_, rfl⟩
  | float y =>
      obtain rfl : y = x := Option.some.inj hx
      exact ⟨b, hb⟩
  | _ => cases hx

theorem below_of_less {v w : Value} {x y : Binary64} (hx : v.number? = some x)
    (hy : w.number? = some y) (h : x.less y = true) : v.Below w := by
  obtain ⟨roundedA, roundedB, hroundedA, hroundedB, hlt⟩ := Binary64.less_iff.mp h
  obtain ⟨a, ha⟩ := exists_exactUnits?_of_number? hx hroundedA
  obtain ⟨b, hb⟩ := exists_exactUnits?_of_number? hy hroundedB
  refine ⟨a, b, ha, hb, Int.not_le.mp fun hle => ?_⟩
  rw [exactUnits?_of_number? hx ha, Option.some.injEq] at hroundedA
  rw [exactUnits?_of_number? hy hb, Option.some.injEq] at hroundedB
  have hmono := Binary64.roundedUnits_mono hle
  omega

end Value

namespace ItemDefinition

variable {d : ItemDefinition} {v : Value} {x : Binary64} {violation : RangeViolation}

/-- The value is a number that is less than the lower bound or more than the upper one. -/
def Excludes (d : ItemDefinition) (v : Value) : Prop :=
  (∃ low ∈ d.min, v.Below low) ∨ ∃ high ∈ d.max, high.Below v

theorem excludes_of_violation? (hx : v.number? = some x) (h : d.violation? x = some violation) :
    d.Excludes v := by
  rcases Option.or_eq_some_iff.mp h with hbelow | ⟨-, habove⟩
  · unfold below? at hbelow
    split at hbelow
    · rename_i y hlow
      obtain ⟨low, hmin, hy⟩ := Option.bind_eq_some_iff.mp hlow
      obtain ⟨hless, -⟩ := Option.ite_none_right_eq_some.mp hbelow
      exact Or.inl ⟨low, hmin, Value.below_of_less hx hy hless⟩
    · cases hbelow
  · unfold above? at habove
    split at habove
    · rename_i y hhigh
      obtain ⟨high, hmax, hy⟩ := Option.bind_eq_some_iff.mp hhigh
      obtain ⟨hless, -⟩ := Option.ite_none_right_eq_some.mp habove
      exact Or.inr ⟨high, hmax, Value.below_of_less hy hx hless⟩
    · cases habove

end ItemDefinition

/-! ## Integer bounds -/

def SharesFloat (i j : Int64) : Prop :=
  (Binary64.ofInt i.toInt).equals (.ofInt j.toInt) = true

instance (i j : Int64) : Decidable (SharesFloat i j) :=
  inferInstanceAs (Decidable (_ = true))

section SharedFloats

open Binary64

variable {i j k : Int64}

theorem sharesFloat_iff : SharesFloat i j ↔ integerUnits i.toInt = integerUnits j.toInt := by
  rw [SharesFloat, equals_iff]
  simp [exactUnits?_ofInt, eq_comm]

theorem less_ofInt_eq_false_iff :
    (ofInt i.toInt).less (ofInt j.toInt) = false ↔ j ≤ i ∨ SharesFloat i j := by
  rw [less_eq_false_iff (exactUnits?_ofInt _) (exactUnits?_ofInt _), sharesFloat_iff,
    Int64.le_iff_toInt_le]
  constructor
  · intro h
    rcases Int.le_total j.toInt i.toInt with hle | hge
    · exact Or.inl hle
    · exact Or.inr (Int.le_antisymm (integerUnits_mono hge) h)
  · rintro (hle | heq)
    · exact integerUnits_mono hle
    · exact Int.le_of_eq heq.symm

theorem sharesFloat_comm : SharesFloat i j ↔ SharesFloat j i := by
  rw [sharesFloat_iff, sharesFloat_iff, eq_comm]

theorem SharesFloat.of_between (h : SharesFloat i k) (hbetween : i ≤ j ∧ j ≤ k ∨ k ≤ j ∧ j ≤ i) :
    SharesFloat j k := by
  rw [sharesFloat_iff] at h ⊢
  simp only [Int64.le_iff_toInt_le] at hbetween
  rcases hbetween with ⟨hlow, hhigh⟩ | ⟨hlow, hhigh⟩
  · have := integerUnits_mono hlow
    have := integerUnits_mono hhigh
    omega
  · have := integerUnits_mono hlow
    have := integerUnits_mono hhigh
    omega

theorem not_sharesFloat_of_small (hne : i ≠ j) (hi : i.toInt.natAbs ≤ 2 ^ 53)
    (hj : j.toInt.natAbs ≤ 2 ^ 53) : ¬ SharesFloat i j := by
  rw [sharesFloat_iff, integerUnits_of_small hi, integerUnits_of_small hj]
  intro heq
  exact hne (Int64.toInt_inj.mp (Int.eq_of_mul_eq_mul_right (by decide) heq))

end SharedFloats

theorem exists_toInt_eq (low high : Int64) {a : Int} (hlow : low.toInt ≤ a)
    (hhigh : a ≤ high.toInt) : ∃ i : Int64, i.toInt = a :=
  ⟨.ofInt a, Int64.toInt_ofInt_of_le (Int.le_trans low.le_toInt hlow)
    (Int.lt_of_le_of_lt hhigh high.toInt_lt)⟩

structure IntegerBounds where
  low? : Option Int64
  high? : Option Int64

namespace IntegerBounds

variable {bounds : IntegerBounds} {d : ItemDefinition} {i : Int64}

structure DeclaredBy (bounds : IntegerBounds) (d : ItemDefinition) : Prop where
  min : d.min = bounds.low?.map .int
  max : d.max = bounds.high?.map .int

def Contains (bounds : IntegerBounds) (i : Int64) : Prop :=
  (∀ low ∈ bounds.low?, low ≤ i) ∧ ∀ high ∈ bounds.high?, i ≤ high

/-- The integer lies between the bounds, or has one float with the bound that it lies beyond. -/
def ContainsRounded (bounds : IntegerBounds) (i : Int64) : Prop :=
  (∀ low ∈ bounds.low?, low ≤ i ∨ SharesFloat i low) ∧
    ∀ high ∈ bounds.high?, i ≤ high ∨ SharesFloat i high

/-- The integers next to the bounds on the outside have other floats. -/
def Sharp (bounds : IntegerBounds) : Prop :=
  (∀ low ∈ bounds.low?, ∀ i : Int64, i.toInt + 1 = low.toInt → ¬ SharesFloat i low) ∧
    ∀ high ∈ bounds.high?, ∀ i : Int64, i.toInt = high.toInt + 1 → ¬ SharesFloat i high

def Proper (bounds : IntegerBounds) : Prop :=
  ∀ low ∈ bounds.low?, ∀ high ∈ bounds.high?, low ≤ high

theorem Contains.rounded (h : bounds.Contains i) : bounds.ContainsRounded i :=
  ⟨fun low hlow => Or.inl (h.1 low hlow), fun high hhigh => Or.inl (h.2 high hhigh)⟩

theorem violation?_ofInt_eq_none_iff (declared : bounds.DeclaredBy d) :
    d.violation? (.ofInt i.toInt) = none ↔ bounds.ContainsRounded i := by
  have hmin : (∀ x, ItemDefinition.bound? d.min = some x →
      (Binary64.ofInt i.toInt).less x = false) ↔
        ∀ low ∈ bounds.low?, low ≤ i ∨ SharesFloat i low := by
    rw [declared.min]
    cases bounds.low? with
    | none => simp [ItemDefinition.bound?]
    | some low => simp [ItemDefinition.bound?, Value.number?, less_ofInt_eq_false_iff]
  have hmax : (∀ x, ItemDefinition.bound? d.max = some x →
      x.less (Binary64.ofInt i.toInt) = false) ↔
        ∀ high ∈ bounds.high?, i ≤ high ∨ SharesFloat i high := by
    rw [declared.max]
    cases bounds.high? with
    | none => simp [ItemDefinition.bound?]
    | some high =>
        simp [ItemDefinition.bound?, Value.number?, less_ofInt_eq_false_iff, sharesFloat_comm]
  rw [ItemDefinition.violation?_eq_none_iff, hmin, hmax, ContainsRounded]

/-- Sharp bounds let no integer beyond them pass: with it the neighbour of the bound would have the
float of the bound. -/
theorem Sharp.contains (hsharp : bounds.Sharp) (h : bounds.ContainsRounded i) :
    bounds.Contains i := by
  constructor
  · intro low hlow
    by_contra hbeyond
    have hshares := (h.1 low hlow).resolve_left hbeyond
    rw [Int64.le_iff_toInt_le] at hbeyond
    have hnext : i.toInt ≤ low.toInt - 1 := by omega
    obtain ⟨j, hj⟩ := exists_toInt_eq i low hnext (by omega)
    refine hsharp.1 low hlow j (by omega) (hshares.of_between (Or.inl ?_))
    simp only [Int64.le_iff_toInt_le]
    omega
  · intro high hhigh
    by_contra hbeyond
    have hshares := (h.2 high hhigh).resolve_left hbeyond
    rw [Int64.le_iff_toInt_le] at hbeyond
    have hnext : high.toInt + 1 ≤ i.toInt := by omega
    obtain ⟨j, hj⟩ := exists_toInt_eq high i (by omega) hnext
    refine hsharp.2 high hhigh j (by omega) (hshares.of_between (Or.inr ?_))
    simp only [Int64.le_iff_toInt_le]
    omega

/-- Where the bounds leave room, the check passes no integer beyond them exactly when they are
sharp. -/
theorem sharp_iff (proper : bounds.Proper) :
    bounds.Sharp ↔ ∀ i, bounds.ContainsRounded i → bounds.Contains i := by
  refine ⟨fun hsharp i => hsharp.contains, fun h => ⟨?_, ?_⟩⟩
  · intro low hlow i hnext hshares
    have hcontains : bounds.Contains i := by
      refine h i ⟨fun low' hlow' => ?_, fun high hhigh => ?_⟩
      · obtain rfl := Option.mem_unique hlow hlow'
        exact Or.inr hshares
      · have hproper := Int64.le_iff_toInt_le.mp (proper low hlow high hhigh)
        exact Or.inl (Int64.le_iff_toInt_le.mpr (by omega))
    have hle := Int64.le_iff_toInt_le.mp (hcontains.1 low hlow)
    omega
  · intro high hhigh i hnext hshares
    have hcontains : bounds.Contains i := by
      refine h i ⟨fun low hlow => ?_, fun high' hhigh' => ?_⟩
      · have hproper := Int64.le_iff_toInt_le.mp (proper low hlow high hhigh)
        exact Or.inl (Int64.le_iff_toInt_le.mpr (by omega))
      · obtain rfl := Option.mem_unique hhigh hhigh'
        exact Or.inr hshares
    have hle := Int64.le_iff_toInt_le.mp (hcontains.2 high hhigh)
    omega

theorem sharp_of_small
    (hlow : ∀ low ∈ bounds.low?, low.toInt.natAbs < 2 ^ 53)
    (hhigh : ∀ high ∈ bounds.high?, high.toInt.natAbs < 2 ^ 53) : bounds.Sharp := by
  constructor
  · intro low hmem i hnext
    have hsmall := hlow low hmem
    exact not_sharesFloat_of_small (by rintro rfl; omega) (by omega) (by omega)
  · intro high hmem i hnext
    have hsmall := hhigh high hmem
    exact not_sharesFloat_of_small (by rintro rfl; omega) (by omega) (by omega)

end IntegerBounds

end MethodSynthesis
