import MethodSynthesis.Value.Basic

/-!
# Comparison is exact

Places order the magnitudes as their exact values do. So two binary64 numbers are compared, and
found equal, as the numbers that they stand for, the infinities lying beyond all others.
-/

namespace MethodSynthesis

namespace Magnitude

variable {m n : Magnitude}

theorem units_lt_shiftLeft {k : Nat} (h : m.binade ≤ k) : m.units < (1 <<< 52) <<< k := by
  have hscale : 2 ^ m.binade ≤ 2 ^ k := Nat.pow_le_pow_right (by decide) h
  unfold units significand shift
  rw [Nat.shiftLeft_eq _ (m.binade - 1), Nat.shiftLeft_eq _ k]
  by_cases hzero : m.binade = 0
  · have hrank : m.rank < 1 <<< 52 := (Nat.div_eq_zero_iff.mp hzero).resolve_left (by decide)
    simp only [hzero, if_true, Nat.zero_sub, Nat.pow_zero, Nat.mul_one] at hscale ⊢
    exact Nat.lt_of_lt_of_le hrank (Nat.le_mul_of_pos_right _ hscale)
  · have hrest : m.rank % (1 <<< 52) < 1 <<< 52 := Nat.mod_lt _ (by decide)
    have hdouble : 2 ^ m.binade = 2 ^ (m.binade - 1) * 2 := by
      rw [← Nat.pow_succ, Nat.succ_eq_add_one, Nat.sub_add_cancel (Nat.pos_of_ne_zero hzero)]
    rw [if_neg hzero]
    calc (1 <<< 52 + m.rank % (1 <<< 52)) * 2 ^ (m.binade - 1)
        < (1 <<< 52 * 2) * 2 ^ (m.binade - 1) :=
          Nat.mul_lt_mul_of_pos_right (by omega) (Nat.two_pow_pos _)
      _ = 1 <<< 52 * 2 ^ m.binade := by rw [hdouble, Nat.mul_assoc, Nat.mul_comm 2]
      _ ≤ 1 <<< 52 * 2 ^ k := Nat.mul_le_mul_left _ hscale

theorem shiftLeft_le_units (h : m.binade ≠ 0) : (1 <<< 52) <<< (m.binade - 1) ≤ m.units := by
  rw [units, significand, if_neg h, shift, Nat.shiftLeft_eq _ (m.binade - 1),
    Nat.shiftLeft_eq _ (m.binade - 1)]
  exact Nat.mul_le_mul_right _ (Nat.le_add_right _ _)

theorem units_lt_of_rank_lt (h : m.rank < n.rank) : m.units < n.units := by
  have hbinade : m.binade ≤ n.binade := Nat.div_le_div_right (Nat.le_of_lt h)
  rcases Nat.eq_or_lt_of_le hbinade with hsame | hbelow
  · -- Within a run the significand grows with the place.
    have hm := Nat.div_add_mod m.rank (1 <<< 52)
    have hn := Nat.div_add_mod n.rank (1 <<< 52)
    have hsignificand : m.significand < n.significand := by
      unfold significand
      rw [hsame]
      unfold binade at hsame ⊢
      split <;> omega
    rw [units, units, shift, shift, hsame, Nat.shiftLeft_eq, Nat.shiftLeft_eq]
    exact Nat.mul_lt_mul_of_pos_right hsignificand (Nat.two_pow_pos _)
  · calc m.units < (1 <<< 52) <<< (n.binade - 1) := units_lt_shiftLeft (by omega)
      _ ≤ n.units := shiftLeft_le_units (by omega)

theorem units_lt_iff : m.units < n.units ↔ m.rank < n.rank := by
  refine ⟨fun h => Nat.lt_of_not_ge fun hge => ?_, units_lt_of_rank_lt⟩
  rcases Nat.eq_or_lt_of_le hge with hsame | hbelow
  · have heq : m = n := by cases m; cases n; simp_all
    exact Nat.lt_irrefl _ (heq ▸ h)
  · exact Nat.lt_asymm h (units_lt_of_rank_lt hbelow)

theorem units_zero : zero.units = 0 := by decide

theorem units_pos_iff : 0 < m.units ↔ 0 < m.rank := units_zero ▸ units_lt_iff (m := zero)

theorem signedUnits_lt_iff {negative other : Bool} :
    m.signedUnits negative < n.signedUnits other ↔
      (if negative then -(m.rank : Int) else m.rank) <
        if other then -(n.rank : Int) else n.rank := by
  have hlt : m.units < n.units ↔ m.rank < n.rank := units_lt_iff
  have hgt : n.units < m.units ↔ n.rank < m.rank := units_lt_iff
  have hm : 0 < m.units ↔ 0 < m.rank := units_pos_iff
  have hn : 0 < n.units ↔ 0 < n.rank := units_pos_iff
  cases negative <;> cases other <;> simp only [signedUnits, if_true, if_false, Bool.false_eq_true]
    <;> omega

/-- What the place behind the last finite magnitude would stand for, 2^1024 in units. It stays
folded, for evaluating it in a proof is slow. -/
@[irreducible]
def infinityUnits : Nat := (1 <<< 52) <<< 2046

theorem units_lt_infinityUnits (m : Magnitude) : m.units < infinityUnits := by
  unfold infinityUnits
  exact units_lt_shiftLeft (Nat.lt_succ_iff.mp (Nat.div_lt_of_lt_mul m.rank_lt))

end Magnitude

namespace Binary64

/-- The number that a binary64 number stands for, in units of 2^-1074. Not-a-number stands for none,
and the infinities for the powers of two behind the last finite numbers. -/
def exactUnits? : Binary64 → Option Int
  | .nan => none
  | .infinity negative =>
      some (if negative then -Magnitude.infinityUnits else Magnitude.infinityUnits)
  | .finite negative m => some (m.signedUnits negative)

@[simp] theorem exactUnits?_eq_none_iff {x : Binary64} : x.exactUnits? = none ↔ x = .nan := by
  cases x <;> simp [exactUnits?]

theorem ofInt_ne_nan (i : Int) : ofInt i ≠ .nan := by
  unfold ofInt
  cases Magnitude.ofNat? i.natAbs <;> nofun

theorem finite_place_bounds (negative : Bool) (m : Magnitude) :
    -(Magnitude.count : Int) < (if negative then -(m.rank : Int) else m.rank) ∧
      (if negative then -(m.rank : Int) else m.rank) < (Magnitude.count : Int) := by
  have hm : m.rank < Magnitude.count := m.rank_lt
  split <;> omega

theorem finite_units_bounds (negative : Bool) (m : Magnitude) :
    -(Magnitude.infinityUnits : Int) < m.signedUnits negative ∧
      m.signedUnits negative < (Magnitude.infinityUnits : Int) := by
  have hm := Magnitude.units_lt_infinityUnits m
  unfold Magnitude.signedUnits
  split <;> omega

/-- A number is less than another when it stands for a smaller one. -/
theorem less_iff {x y : Binary64} :
    x.less y = true ↔ ∃ a b, x.exactUnits? = some a ∧ y.exactUnits? = some b ∧ a < b := by
  cases x with
  | nan => simp [less, place?, exactUnits?]
  | infinity negative =>
      cases y with
      | nan => simp [less, place?, exactUnits?]
      | infinity other =>
          have hcount : 0 < Magnitude.count := by decide
          have hunits := Magnitude.units_lt_infinityUnits .zero
          cases negative <;> cases other <;> simp [less, place?, exactUnits?] <;> omega
      | finite other n =>
          obtain ⟨hlow, hhigh⟩ := finite_place_bounds other n
          obtain ⟨hleast, hmost⟩ := finite_units_bounds other n
          cases negative
          · simp [less, place?, exactUnits?, Int.lt_asymm hhigh, Int.lt_asymm hmost]
          · simp [less, place?, exactUnits?, hlow, hleast]
  | finite negative m =>
      cases y with
      | nan => simp [less, place?, exactUnits?]
      | infinity other =>
          obtain ⟨hlow, hhigh⟩ := finite_place_bounds negative m
          obtain ⟨hleast, hmost⟩ := finite_units_bounds negative m
          cases other
          · simp [less, place?, exactUnits?, hhigh, hmost]
          · simp [less, place?, exactUnits?, Int.lt_asymm hlow, Int.lt_asymm hleast]
      | finite other n => simp [less, place?, exactUnits?, Magnitude.signedUnits_lt_iff]

theorem less_eq_false_iff {x y : Binary64} {a b : Int} (hx : x.exactUnits? = some a)
    (hy : y.exactUnits? = some b) : x.less y = false ↔ b ≤ a := by
  rw [← Bool.not_eq_true, less_iff]
  simp [hx, hy]

theorem equals_iff_not_less {x y : Binary64} (hx : x ≠ .nan) (hy : y ≠ .nan) :
    x.equals y = true ↔ x.less y = false ∧ y.less x = false := by
  obtain ⟨a, ha⟩ : ∃ a, x.place? = some a := by cases x <;> simp_all [place?]
  obtain ⟨b, hb⟩ : ∃ b, y.place? = some b := by cases y <;> simp_all [place?]
  simp only [equals, less, ha, hb, decide_eq_true_eq, decide_eq_false_iff_not]
  omega

/-- Two numbers are equal when they stand for the same one. -/
theorem equals_iff {x y : Binary64} :
    x.equals y = true ↔ ∃ a, x.exactUnits? = some a ∧ y.exactUnits? = some a := by
  cases hx : x.exactUnits? with
  | none => simp [exactUnits?_eq_none_iff.mp hx]
  | some a =>
      cases hy : y.exactUnits? with
      | none => simp [exactUnits?_eq_none_iff.mp hy, equals_comm x]
      | some b =>
          have hxnan : x ≠ .nan := by rintro rfl; cases hx
          have hynan : y ≠ .nan := by rintro rfl; cases hy
          rw [equals_iff_not_less hxnan hynan, less_eq_false_iff hx hy, less_eq_false_iff hy hx]
          simp only [Option.some.injEq]
          constructor
          · intro ⟨hle, hge⟩
            exact ⟨a, rfl, Int.le_antisymm hle hge⟩
          · rintro ⟨_, rfl, rfl⟩
            exact ⟨Int.le_refl b, Int.le_refl b⟩

end Binary64

namespace Value

/-- The number that a value is, in units of 2^-1074; no other value and not-a-number is one. -/
def exactUnits? : Value → Option Int
  | .int i => some (i.toInt * Magnitude.unitsPerOne)
  | .float x => x.exactUnits?
  | _ => none

/-- Both are numbers, and the first is at most the second. -/
def AtMost (v w : Value) : Prop :=
  ∃ a b, v.exactUnits? = some a ∧ w.exactUnits? = some b ∧ a ≤ b

theorem atMost_iff {v w : Value} {a b : Int} (hv : v.exactUnits? = some a)
    (hw : w.exactUnits? = some b) : v.AtMost w ↔ a ≤ b := by
  simp [AtMost, hv, hw]

theorem atMost_float_iff {x y : Binary64} (hx : x ≠ .nan) (hy : y ≠ .nan) :
    (float x).AtMost (float y) ↔ y.less x = false := by
  obtain ⟨a, ha⟩ := Option.ne_none_iff_exists'.mp (mt Binary64.exactUnits?_eq_none_iff.mp hx)
  obtain ⟨b, hb⟩ := Option.ne_none_iff_exists'.mp (mt Binary64.exactUnits?_eq_none_iff.mp hy)
  have hv : (float x).exactUnits? = some a := ha
  have hw : (float y).exactUnits? = some b := hb
  rw [atMost_iff hv hw, Binary64.less_eq_false_iff hb ha]

instance (v w : Value) : Decidable (v.AtMost w) :=
  match hv : v.exactUnits?, hw : w.exactUnits? with
  | some _, some _ => decidable_of_iff _ (atMost_iff hv hw).symm
  | none, _ => isFalse fun ⟨_, _, ha, _, _⟩ => nomatch hv.symm.trans ha
  | some _, none => isFalse fun ⟨_, _, _, hb, _⟩ => nomatch hw.symm.trans hb

theorem exactUnits?_eq_of_equals {v w : Value} (h : v.equals w = true) :
    v.exactUnits? = w.exactUnits? := by
  cases v <;> cases w <;> simp only [equals, Bool.false_eq_true, decide_eq_true_eq] at h
  case int.int i j => rw [h]
  case float.float x y =>
      obtain ⟨a, hx, hy⟩ := Binary64.equals_iff.mp h
      exact hx.trans hy.symm
  all_goals rfl

end Value

end MethodSynthesis
