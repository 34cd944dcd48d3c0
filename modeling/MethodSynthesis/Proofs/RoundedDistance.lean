import MethodSynthesis.Proofs.IntegerRounding

/-!
# Distances below the tolerance

The distance of two floats is their exact difference, rounded. Rounding keeps the order, so the
distance is below the gap behind one exactly when the difference is below the first number that is
rounded up to the gap. No distance of an infinity is below it, not even that to itself.
-/

namespace MethodSynthesis

namespace Magnitude

/-- Units are rounded below a place up to the first number of them that reaches it. -/
theorem nearestRank_lt_iff {n limit rank : Nat} (hbelow : nearestRank (limit - 1) < rank)
    (hreached : rank ≤ nearestRank limit) : nearestRank n < rank ↔ n < limit := by
  constructor
  · intro hn
    refine Nat.lt_of_not_le fun hbeyond => ?_
    exact Nat.not_lt.mpr (Nat.le_trans hreached (nearestRank_mono hbeyond)) hn
  · intro hn
    exact Nat.lt_of_le_of_lt (nearestRank_mono (Nat.le_sub_one_of_lt hn)) hbelow

/-- The first difference that is rounded up to the gap behind one, 2^-52 - 2^-106 in units. It lies
half a step in front of the gap, and the tie goes to the gap. -/
@[irreducible]
def toleranceUnits : Nat := (1 <<< 1022) - (1 <<< 968)

theorem nearestRank_lt_gap_iff {n : Nat} :
    nearestRank n < nearestRank (1 <<< 1022) ↔ n < toleranceUnits :=
  nearestRank_lt_iff (by decide +kernel) (by decide +kernel)

end Magnitude

namespace Binary64

open Magnitude

variable {x y : Binary64}

/-- Both are finite, and their exact difference is below the tolerance. -/
def Near (x y : Binary64) : Prop :=
  ∃ a ∈ x.units?, ∃ b ∈ y.units?, (a - b).natAbs < toleranceUnits

instance (x y : Binary64) : Decidable (x.Near y) :=
  inferInstanceAs (Decidable (∃ a ∈ x.units?, ∃ b ∈ y.units?, (a - b).natAbs < toleranceUnits))

theorem near_finite {negative other : Bool} {m n : Magnitude} :
    (finite negative m).Near (finite other n) ↔
      (m.signedUnits negative - n.signedUnits other).natAbs < toleranceUnits := by
  simp [Near, units?]

theorem near_comm : x.Near y ↔ y.Near x := by
  have hswap : ∀ a b : Int, (a - b).natAbs = (b - a).natAbs := by omega
  constructor
  · rintro ⟨a, ha, b, hb, hlt⟩
    exact ⟨b, hb, a, ha, hswap a b ▸ hlt⟩
  · rintro ⟨b, hb, a, ha, hlt⟩
    exact ⟨a, ha, b, hb, hswap b a ▸ hlt⟩

theorem isFinite_of_units? {a : Int} (h : x.units? = some a) : x.isFinite = true := by
  cases x with
  | finite negative m => rfl
  | _ => cases h

theorem Near.isFinite (h : x.Near y) : x.isFinite = true ∧ y.isFinite = true := by
  obtain ⟨a, ha, b, hb, -⟩ := h
  exact ⟨isFinite_of_units? ha, isFinite_of_units? hb⟩

theorem near_of_equals (h : x.equals y = true) (hy : y.isFinite = true) : x.Near y := by
  obtain ⟨a, hxa, hya⟩ := equals_iff.mp h
  cases y with
  | finite other n =>
      cases x with
      | nan => cases hxa
      | infinity negative =>
          have hbounds := finite_units_bounds other n
          simp only [exactUnits?, Option.some.injEq] at hxa hya
          split at hxa <;> omega
      | finite negative m =>
          have hzero : (a - a).natAbs < toleranceUnits := by
            rw [Int.sub_self]
            decide +kernel
          exact ⟨a, hxa, a, hya, hzero⟩
  | _ => cases hy

/-! ## The rounded distance -/

theorem place?_nearest? (n : Nat) :
    (ofMagnitude? false (nearest? n 1)).place? = some ((min (nearestRank n) count : Nat) : Int) := by
  cases hn : nearest? n 1 with
  | none =>
      have hcount : count ≤ nearestRank n := Nat.le_of_not_lt fun hlt => by
        obtain ⟨x, hx⟩ := exists_nearest? hlt
        cases hn.symm.trans hx
      rw [Nat.min_eq_right hcount]
      rfl
  | some x =>
      have hrank : x.rank ≤ count := Nat.le_of_lt x.rank_lt
      rw [nearest?_eq_some_iff.mp hn, Nat.min_eq_left hrank]
      rfl

theorem nearest?_less_epsilon_iff {n : Nat} :
    (ofMagnitude? false (nearest? n 1)).less epsilon = true ↔ n < toleranceUnits := by
  have hgap : nearestRank (1 <<< 1022) < count := by decide +kernel
  rw [epsilon, less, place?_nearest?, place?_nearest?, decide_eq_true_iff, Int.ofNat_lt,
    Nat.min_eq_left (Nat.le_of_lt hgap), ← nearestRank_lt_gap_iff]
  omega

theorem distance_less_epsilon_of_not_finite (h : ¬ (x.isFinite = true ∧ y.isFinite = true)) :
    (x.distance y).less epsilon = false := by
  have hnan : nan.less epsilon = false := rfl
  have hinfinity : (infinity false).less epsilon = false := by decide +kernel
  cases x with
  | nan => exact hnan
  | infinity negative =>
      cases y with
      | nan => exact hnan
      | infinity other =>
          -- An infinity taken from itself leaves no number, which is not less than the gap either.
          rw [distance]
          split
          · exact hnan
          · exact hinfinity
      | finite other n => exact hinfinity
  | finite negative m =>
      cases y with
      | nan => exact hnan
      | infinity other => exact hinfinity
      | finite other n => exact absurd ⟨rfl, rfl⟩ h

/-- The rounded distance is below the gap behind one when the exact one is below the tolerance. -/
theorem distance_less_epsilon_iff : (x.distance y).less epsilon = true ↔ x.Near y := by
  by_cases hfinite : x.isFinite = true ∧ y.isFinite = true
  · obtain ⟨hx, hy⟩ := hfinite
    cases x with
    | finite negative m =>
        cases y with
        | finite other n => rw [near_finite, distance, nearest?_less_epsilon_iff]
        | _ => cases hy
    | _ => cases hx
  · rw [distance_less_epsilon_of_not_finite hfinite]
    exact iff_of_false Bool.false_ne_true fun hnear => hfinite hnear.isFinite

end Binary64

end MethodSynthesis
