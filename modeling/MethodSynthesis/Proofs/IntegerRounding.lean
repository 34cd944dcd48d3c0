import Mathlib.Algebra.Ring.Nat
import MethodSynthesis.Proofs.ExactOrder

/-!
# Integers as floats

The float nearest to an integer grows with the integer, and up to 2^53 it is the integer itself.
What a float stands for is rounded to itself, so that rounding carries nothing past a float.
-/

namespace MethodSynthesis

/-! ## Rounded quotients -/

section Quotients

variable {m n d : Nat}

theorem divNearestEven_bounds (n d : Nat) :
    n / d ≤ divNearestEven n d ∧ divNearestEven n d ≤ n / d + 1 := by
  simp only [divNearestEven]
  split
  · omega
  · split <;> omega

theorem divNearestEven_mono (h : m ≤ n) : divNearestEven m d ≤ divNearestEven n d := by
  have hquotient : m / d ≤ n / d := Nat.div_le_div_right h
  rcases Nat.eq_or_lt_of_le hquotient with hsame | hbelow
  · have hm := Nat.div_add_mod m d
    have hn := Nat.div_add_mod n d
    rw [hsame] at hm
    simp only [divNearestEven, hsame]
    have hrest : m % d ≤ n % d := by omega
    repeat' split
    all_goals omega
  · have hm := (divNearestEven_bounds m d).2
    have hn := (divNearestEven_bounds n d).1
    omega

theorem divNearestEven_of_dvd (hd : 0 < d) (h : d ∣ n) : divNearestEven n d = n / d := by
  simp only [divNearestEven, Nat.mod_eq_zero_of_dvd h, Nat.mul_zero, hd, if_true]

end Quotients

namespace Magnitude

variable {m n : Nat}

/-- The place of the magnitude nearest to so many units, finite or not. -/
def nearestRank (units : Nat) : Nat :=
  shiftFor units * (1 <<< 52) + divNearestEven units (1 <<< shiftFor units)

theorem nearest?_one (units : Nat) : nearest? units 1 = ofRank? (nearestRank units) := by
  simp only [nearest?, nearestRank, Nat.div_one]

theorem lt_two_pow_shiftFor (n : Nat) : n < 2 ^ (53 + shiftFor n) := by
  have hlog : n.log2 + 1 ≤ 53 + shiftFor n := by
    unfold shiftFor
    omega
  exact Nat.lt_of_lt_of_le Nat.lt_log2_self (Nat.pow_le_pow_right (by decide) hlog)

theorem two_pow_shiftFor_le (h : shiftFor n ≠ 0) : 2 ^ (52 + shiftFor n) ≤ n := by
  have hzero : n ≠ 0 := by
    rintro rfl
    exact h rfl
  have hlog : n.log2 = 52 + shiftFor n := by
    unfold shiftFor at h ⊢
    omega
  exact hlog ▸ Nat.log2_self_le hzero

theorem shiftFor_mono (h : m ≤ n) : shiftFor m ≤ shiftFor n := by
  by_cases hzero : shiftFor m = 0
  · omega
  · have hpow : 2 ^ (52 + shiftFor m) < 2 ^ (53 + shiftFor n) :=
      Nat.lt_of_le_of_lt (Nat.le_trans (two_pow_shiftFor_le hzero) h) (lt_two_pow_shiftFor n)
    have := (Nat.pow_lt_pow_iff_right (by decide : 1 < 2)).mp hpow
    omega

theorem div_shiftFor_lt (n : Nat) : n / (1 <<< shiftFor n) < 2 * (1 <<< 52) := by
  rw [Nat.one_shiftLeft, Nat.div_lt_iff_lt_mul (Nat.two_pow_pos _)]
  have := lt_two_pow_shiftFor n
  rwa [Nat.pow_add] at this

theorem le_div_shiftFor (h : shiftFor n ≠ 0) : 1 <<< 52 ≤ n / (1 <<< shiftFor n) := by
  rw [Nat.one_shiftLeft (shiftFor n), Nat.le_div_iff_mul_le (Nat.two_pow_pos _)]
  have := two_pow_shiftFor_le h
  rwa [Nat.pow_add] at this

theorem nearestRank_mono (h : m ≤ n) : nearestRank m ≤ nearestRank n := by
  rcases Nat.eq_or_lt_of_le (shiftFor_mono h) with hsame | hbelow
  · rw [nearestRank, nearestRank, hsame]
    exact Nat.add_le_add_left (divNearestEven_mono h) _
  · -- The first place of the later run is the last that the earlier one can be rounded up to.
    have hm := div_shiftFor_lt m
    have hn := le_div_shiftFor (n := n) (by omega)
    have hup := (divNearestEven_bounds m (1 <<< shiftFor m)).2
    have hdown := (divNearestEven_bounds n (1 <<< shiftFor n)).1
    unfold nearestRank
    omega

/-- The units of the nearest magnitude; behind the last finite one those of infinity. -/
def nearestUnits (units : Nat) : Nat :=
  ((nearest? units 1).map Magnitude.units).getD infinityUnits

theorem eq_of_rank_eq {x y : Magnitude} (h : x.rank = y.rank) : x = y := by
  cases x
  cases y
  exact (mk.injEq ..).mpr h

theorem nearest?_eq_some_iff {x : Magnitude} : nearest? n 1 = some x ↔ nearestRank n = x.rank := by
  rw [nearest?_one, ofRank?]
  constructor
  · intro h
    obtain ⟨hlt, heq⟩ := Option.dite_none_right_eq_some.mp h
    exact congrArg rank (Option.some.inj heq)
  · intro h
    rw [dif_pos (h ▸ x.rank_lt)]
    exact congrArg some (eq_of_rank_eq h)

theorem nearest?_eq_none_of_le (h : nearestRank m ≤ nearestRank n) (hm : nearest? m 1 = none) :
    nearest? n 1 = none := by
  rw [nearest?_one, ofRank?] at hm ⊢
  split at hm
  · cases hm
  · rename_i hlarge
    exact dif_neg fun hsmall => hlarge (Nat.lt_of_le_of_lt h hsmall)

theorem nearestUnits_of_some {x : Magnitude} (h : nearest? n 1 = some x) :
    nearestUnits n = x.units := by
  rw [nearestUnits, h, Option.map_some, Option.getD_some]

theorem nearestUnits_of_none (h : nearest? n 1 = none) : nearestUnits n = infinityUnits := by
  rw [nearestUnits, h, Option.map_none, Option.getD_none]

theorem nearestUnits_mono (h : m ≤ n) : nearestUnits m ≤ nearestUnits n := by
  have hrank := nearestRank_mono h
  cases hm : nearest? m 1 with
  | none =>
      have hn := nearest?_eq_none_of_le hrank hm
      exact Nat.le_of_eq ((nearestUnits_of_none hm).trans (nearestUnits_of_none hn).symm)
  | some x =>
      rw [nearestUnits_of_some hm]
      cases hn : nearest? n 1 with
      | none =>
          rw [nearestUnits_of_none hn]
          exact Nat.le_of_lt (units_lt_infinityUnits x)
      | some y =>
          rw [nearestUnits_of_some hn]
          rw [nearest?_eq_some_iff.mp hm, nearest?_eq_some_iff.mp hn] at hrank
          exact Nat.le_of_not_lt fun hlt => Nat.not_lt.mpr hrank (units_lt_iff.mp hlt)

theorem units_of_nearest?_of_dvd {x : Magnitude} (hdvd : 1 <<< shiftFor n ∣ n)
    (h : nearest? n 1 = some x) : x.units = n := by
  have hspacing : 0 < 1 <<< shiftFor n := by
    rw [Nat.one_shiftLeft]
    exact Nat.two_pow_pos _
  have hrank : shiftFor n * (1 <<< 52) + n / (1 <<< shiftFor n) = x.rank := by
    rw [← divNearestEven_of_dvd hspacing hdvd]
    exact nearest?_eq_some_iff.mp h
  have hlt := div_shiftFor_lt n
  have hexact : n / (1 <<< shiftFor n) * (1 <<< shiftFor n) = n := Nat.div_mul_cancel hdvd
  by_cases hfirst : n / (1 <<< shiftFor n) < 1 <<< 52
  · -- The first run has the finest spacing, so its places count units.
    have hshift : shiftFor n = 0 := Decidable.byContradiction fun hne =>
      Nat.not_lt.mpr (le_div_shiftFor hne) hfirst
    rw [hshift] at hrank hfirst
    simp only [Nat.shiftLeft_zero, Nat.div_one, Nat.zero_mul, Nat.zero_add] at hrank hfirst
    have hbinade : x.binade = 0 := Nat.div_eq_of_lt (hrank ▸ hfirst)
    rw [units, significand, shift, if_pos hbinade, hbinade, Nat.zero_sub, Nat.shiftLeft_zero, hrank]
  · have hplace := Nat.div_add_mod x.rank (1 <<< 52)
    have hrest : x.rank % (1 <<< 52) < 1 <<< 52 := Nat.mod_lt _ (by decide)
    have hbinade : x.binade = shiftFor n + 1 := by
      unfold binade
      omega
    have hsignificand : x.significand = n / (1 <<< shiftFor n) := by
      rw [binade] at hbinade
      rw [significand, if_neg (by rw [binade]; omega)]
      omega
    rw [units, shift, hbinade, hsignificand, Nat.add_sub_cancel, Nat.shiftLeft_eq,
      ← Nat.one_shiftLeft, hexact]

/-! ## Whole numbers of 53 bits -/

theorem shiftFor_mul_le {k e j : Nat} (h : k < 2 ^ (53 + j)) : shiftFor (k * 2 ^ e) ≤ e + j := by
  rcases Nat.eq_zero_or_pos k with rfl | hk
  · rw [Nat.zero_mul]
    exact Nat.zero_le _
  · have hne : k * 2 ^ e ≠ 0 := Nat.mul_ne_zero (Nat.ne_of_gt hk) (Nat.ne_of_gt (Nat.two_pow_pos e))
    have hlt : k * 2 ^ e < 2 ^ (53 + j + e) := by
      rw [Nat.pow_add]
      exact Nat.mul_lt_mul_of_pos_right h (Nat.two_pow_pos e)
    have hlog := (Nat.log2_lt hne).mpr hlt
    unfold shiftFor
    omega

theorem shiftFor_dvd {k e : Nat} (h : k ≤ 2 ^ 53) : 1 <<< shiftFor (k * 2 ^ e) ∣ k * 2 ^ e := by
  rw [Nat.one_shiftLeft]
  rcases Nat.eq_or_lt_of_le h with rfl | hlt
  · have hshift : shiftFor (2 ^ 53 * 2 ^ e) ≤ e + 1 := shiftFor_mul_le (by decide)
    rw [← Nat.pow_add] at hshift ⊢
    exact Nat.pow_dvd_pow 2 (by omega)
  · have hshift : shiftFor (k * 2 ^ e) ≤ e := shiftFor_mul_le (j := 0) hlt
    exact Nat.dvd_mul_left_of_dvd (Nat.pow_dvd_pow 2 hshift) k

theorem exists_nearest? (h : nearestRank n < count) : ∃ x, nearest? n 1 = some x :=
  ⟨⟨nearestRank n, h⟩, nearest?_eq_some_iff.mpr rfl⟩

theorem nearestUnits_of_le {k : Nat} (h : k ≤ 2 ^ 53) :
    nearestUnits (k * unitsPerOne) = k * unitsPerOne := by
  -- The exponent is named, for its power is not to be evaluated.
  obtain ⟨e, he⟩ : ∃ e, e = 1074 := ⟨_, rfl⟩
  have hunits : unitsPerOne = 2 ^ e := by rw [← Nat.one_shiftLeft, he, unitsPerOne]
  have hshift := shiftFor_mul_le (e := e) (j := 1) (Nat.lt_of_le_of_lt h (by decide))
  have hdvd := shiftFor_dvd (e := e) h
  rw [← hunits] at hshift hdvd
  have hfinite : nearestRank (k * unitsPerOne) < count := by
    have hlt := div_shiftFor_lt (k * unitsPerOne)
    have hup := (divNearestEven_bounds (k * unitsPerOne) (1 <<< shiftFor (k * unitsPerOne))).2
    unfold nearestRank count
    omega
  obtain ⟨x, hx⟩ := exists_nearest? hfinite
  rw [nearestUnits_of_some hx]
  exact units_of_nearest?_of_dvd hdvd hx

/-! ## Magnitudes are rounded to themselves -/

theorem shiftFor_mul_two_pow {k : Nat} (hlow : 1 <<< 52 ≤ k) (hhigh : k < 2 * (1 <<< 52))
    (e : Nat) : shiftFor (k * 2 ^ e) = e := by
  have hle : shiftFor (k * 2 ^ e) ≤ e := shiftFor_mul_le (j := 0) hhigh
  have hne : k * 2 ^ e ≠ 0 := Nat.mul_ne_zero (by omega) (Nat.ne_of_gt (Nat.two_pow_pos e))
  have hpow : 2 ^ (52 + e) ≤ k * 2 ^ e := by
    rw [Nat.pow_add]
    exact Nat.mul_le_mul_right _ hlow
  have hlog := (Nat.le_log2 hne).mpr hpow
  unfold shiftFor at hle ⊢
  omega

theorem nearestRank_mul_two_pow {k : Nat} (hlow : 1 <<< 52 ≤ k) (hhigh : k < 2 * (1 <<< 52))
    (e : Nat) : nearestRank (k * 2 ^ e) = e * (1 <<< 52) + k := by
  rw [nearestRank, shiftFor_mul_two_pow hlow hhigh, Nat.one_shiftLeft e,
    divNearestEven_of_dvd (Nat.two_pow_pos e) (Nat.dvd_mul_left _ _),
    Nat.mul_div_cancel _ (Nat.two_pow_pos e)]

theorem nearestRank_units (x : Magnitude) : nearestRank x.units = x.rank := by
  have hplace := Nat.div_add_mod x.rank (1 <<< 52)
  have hrest : x.rank % (1 <<< 52) < 1 <<< 52 := Nat.mod_lt _ (by decide)
  by_cases hfirst : x.binade = 0
  · have hrank : x.rank < 1 <<< 52 :=
      (Nat.div_eq_zero_iff.mp hfirst).resolve_left (by decide)
    have hshift : shiftFor x.rank = 0 := by
      have := shiftFor_mul_le (k := x.rank) (e := 0) (j := 0) (by omega)
      simpa using this
    rw [units, significand, if_pos hfirst, shift, hfirst, Nat.zero_sub, Nat.shiftLeft_zero,
      nearestRank, hshift, Nat.zero_mul, Nat.zero_add, Nat.shiftLeft_zero,
      divNearestEven_of_dvd Nat.one_pos (Nat.one_dvd _), Nat.div_one]
  · rw [units, significand, if_neg hfirst, shift, Nat.shiftLeft_eq _ (x.binade - 1),
      nearestRank_mul_two_pow (Nat.le_add_right _ _) (by omega)]
    unfold binade at hfirst ⊢
    omega

theorem nearestUnits_units (x : Magnitude) : nearestUnits x.units = x.units :=
  nearestUnits_of_some (nearest?_eq_some_iff.mpr (nearestRank_units x))

theorem nearestUnits_infinityUnits : nearestUnits infinityUnits = infinityUnits := by
  -- The exponent is named, for its power is not to be evaluated.
  obtain ⟨e, he⟩ : ∃ e, e = 2046 := ⟨_, rfl⟩
  have hrank : nearestRank infinityUnits = count := by
    rw [infinityUnits, ← he, Nat.shiftLeft_eq _ e,
      nearestRank_mul_two_pow (Nat.le_refl _) (by decide), he]
    rfl
  refine nearestUnits_of_none ?_
  rw [nearest?_one, hrank]
  rfl

end Magnitude

namespace Binary64

open Magnitude

def roundedUnits (a : Int) : Int :=
  if a < 0 then -(nearestUnits a.natAbs) else nearestUnits a.natAbs

theorem roundedUnits_mono {a b : Int} (h : a ≤ b) : roundedUnits a ≤ roundedUnits b := by
  have hup : a.natAbs ≤ b.natAbs → nearestUnits a.natAbs ≤ nearestUnits b.natAbs :=
    nearestUnits_mono
  have hdown : b.natAbs ≤ a.natAbs → nearestUnits b.natAbs ≤ nearestUnits a.natAbs :=
    nearestUnits_mono
  unfold roundedUnits
  split <;> split <;> omega

theorem roundedUnits_exactUnits? {x : Binary64} {a : Int} (h : x.exactUnits? = some a) :
    roundedUnits a = a := by
  have hfix : nearestUnits a.natAbs = a.natAbs := by
    cases x with
    | nan => cases h
    | infinity negative =>
        cases h
        split <;> simp only [Int.natAbs_neg, Int.natAbs_natCast, nearestUnits_infinityUnits]
    | finite negative m =>
        cases h
        unfold signedUnits
        split <;> simp only [Int.natAbs_neg, Int.natAbs_natCast, nearestUnits_units]
  unfold roundedUnits
  rw [hfix]
  split <;> omega

def integerUnits (i : Int) : Int :=
  if i < 0 then -(nearestUnits (i.natAbs * unitsPerOne)) else nearestUnits (i.natAbs * unitsPerOne)

theorem exactUnits?_ofInt (i : Int) : (ofInt i).exactUnits? = some (integerUnits i) := by
  unfold ofInt ofNat? integerUnits
  cases h : nearest? (i.natAbs * unitsPerOne) 1 with
  | none => simp [ofMagnitude?, exactUnits?, nearestUnits_of_none h]
  | some x => simp [ofMagnitude?, exactUnits?, signedUnits, nearestUnits_of_some h]

theorem integerUnits_eq_roundedUnits (i : Int) :
    integerUnits i = roundedUnits (i * unitsPerOne) := by
  have hsign : i * unitsPerOne < 0 ↔ i < 0 :=
    ⟨fun h => Int.neg_of_mul_neg_left h (by decide),
      fun h => Int.mul_neg_of_neg_of_pos h (by decide)⟩
  rw [integerUnits, roundedUnits, Int.natAbs_mul, Int.natAbs_natCast]
  simp only [hsign]

theorem integerUnits_mono {i j : Int} (h : i ≤ j) : integerUnits i ≤ integerUnits j := by
  rw [integerUnits_eq_roundedUnits, integerUnits_eq_roundedUnits]
  exact roundedUnits_mono (Int.mul_le_mul_of_nonneg_right h (Int.natCast_nonneg _))

theorem integerUnits_of_small {i : Int} (h : i.natAbs ≤ 2 ^ 53) :
    integerUnits i = i * unitsPerOne := by
  unfold integerUnits
  rw [nearestUnits_of_le h, Int.natCast_mul]
  split
  · rw [Int.ofNat_natAbs_of_nonpos (by omega), Int.neg_mul, Int.neg_neg]
  · rw [Int.natAbs_of_nonneg (by omega)]

theorem integerUnits_neg (i : Int) : integerUnits (-i) = -integerUnits i := by
  rcases Int.lt_trichotomy i 0 with hneg | rfl | hpos
  · rw [integerUnits, integerUnits, if_neg (by omega), if_pos hneg, Int.natAbs_neg, Int.neg_neg]
  · rw [Int.neg_zero, integerUnits_of_small (by decide), Int.zero_mul, Int.neg_zero]
  · rw [integerUnits, integerUnits, if_pos (by omega), if_neg (by omega), Int.natAbs_neg]

theorem integerUnits_lt {i limit : Int} (hlimit : limit.natAbs < 2 ^ 53 * unitsPerOne)
    (h : i * unitsPerOne < limit) : integerUnits i < limit := by
  have hone : (0 : Int) < unitsPerOne := by decide
  -- The last integer below the number has at most 53 bits, so rounding keeps it.
  have hle : i ≤ (limit - 1) / unitsPerOne := (Int.le_ediv_iff_mul_le hone).mpr (by omega)
  have hsmall : ((limit - 1) / (unitsPerOne : Int)).natAbs ≤ 2 ^ 53 := by
    have hlow : -2 ^ 53 ≤ (limit - 1) / (unitsPerOne : Int) :=
      (Int.le_ediv_iff_mul_le hone).mpr (by omega)
    have hhigh : (limit - 1) / (unitsPerOne : Int) < 2 ^ 53 :=
      (Int.ediv_lt_iff_lt_mul hone).mpr (by omega)
    omega
  calc integerUnits i ≤ integerUnits ((limit - 1) / unitsPerOne) := integerUnits_mono hle
    _ = (limit - 1) / unitsPerOne * unitsPerOne := integerUnits_of_small hsmall
    _ ≤ limit - 1 := Int.ediv_mul_le _ (Int.ne_of_gt hone)
    _ < limit := Int.sub_one_lt_of_le (Int.le_refl limit)

theorem lt_integerUnits {i limit : Int} (hlimit : limit.natAbs < 2 ^ 53 * unitsPerOne)
    (h : limit < i * unitsPerOne) : limit < integerUnits i := by
  have hbelow : -i * unitsPerOne < -limit := by
    rw [Int.neg_mul]
    exact Int.neg_lt_neg h
  have hneg := integerUnits_lt (Int.natAbs_neg limit ▸ hlimit) hbelow
  rw [integerUnits_neg] at hneg
  exact Int.lt_of_neg_lt_neg hneg

end Binary64

end MethodSynthesis
