import MethodSynthesis.Proofs.RoundedDistance
import MethodSynthesis.Scenario.Assertion

/-!
# Results that meet an expected value

An assertion about a value is met by the results that are equal to it and by those that are close to
it. The infinities are the exception: each is equal to itself, but an assertion that expects one is
met by no result at all.
-/

namespace MethodSynthesis

namespace Value

variable {v w : Value} {x y : Binary64} {i : Int64}

def IsInfinite (v : Value) : Prop := ∃ negative, v = .float (.infinity negative)

instance (v : Value) : Decidable v.IsInfinite :=
  inferInstanceAs (Decidable (∃ negative, v = .float (.infinity negative)))

/-- Both are numbers, one of them is a float, and their floats are near. -/
def CloseTo (v w : Value) : Prop :=
  ∃ x ∈ v.number?, ∃ y ∈ w.number?, (v = .float x ∨ w = .float y) ∧ x.Near y

instance (v w : Value) : Decidable (v.CloseTo w) :=
  inferInstanceAs
    (Decidable (∃ x ∈ v.number?, ∃ y ∈ w.number?, (v = .float x ∨ w = .float y) ∧ x.Near y))

theorem closeTo_float : (float x).CloseTo (float y) ↔ x.Near y := by
  simp [CloseTo, number?]

theorem closeTo_float_int : (float x).CloseTo (int i) ↔ x.Near (.ofInt i.toInt) := by
  simp [CloseTo, number?]

theorem closeTo_int_float : (int i).CloseTo (float x) ↔ x.Near (.ofInt i.toInt) := by
  simp [CloseTo, number?, Binary64.near_comm]

theorem CloseTo.isFinite (h : v.CloseTo (float y)) : y.isFinite = true := by
  obtain ⟨x, -, z, ⟨⟩, -, hnear⟩ := h
  exact hnear.isFinite.2

theorem CloseTo.ne_nan (h : v.CloseTo w) : w ≠ .float .nan := by
  rintro rfl
  cases h.isFinite

theorem CloseTo.not_isInfinite (h : v.CloseTo w) : ¬ w.IsInfinite := by
  rintro ⟨negative, rfl⟩
  cases h.isFinite

theorem closeTo_of_equals (h : x.equals y = true) (hy : ¬ (float y).IsInfinite) :
    (float x).CloseTo (float y) := by
  cases y with
  | nan => cases (equals_nan (float x)).symm.trans h
  | infinity negative => exact absurd ⟨negative, rfl⟩ hy
  | finite negative m => exact closeTo_float.mpr (Binary64.near_of_equals h rfl)

/-- The tolerance adds the close numbers to the equal values and takes the infinities from them. -/
theorem isNear_iff : v.isNear w = true ↔ v.CloseTo w ∨ v.equals w = true ∧ ¬ w.IsInfinite := by
  cases v <;> cases w
  case float.float x y =>
      rw [isNear, Binary64.distance_less_epsilon_iff, closeTo_float]
      constructor
      · exact Or.inl
      · rintro (hnear | ⟨hequals, hfinite⟩)
        · exact hnear
        · exact closeTo_float.mp (closeTo_of_equals hequals hfinite)
  case float.int x i =>
      rw [isNear, Binary64.distance_less_epsilon_iff, closeTo_float_int]
      simp [equals]
  case int.float i x =>
      rw [isNear, Binary64.distance_less_epsilon_iff, closeTo_int_float]
      simp [equals]
  -- Without a float among them, values are compared by equality alone.
  all_goals simp [isNear, equals, CloseTo, number?, IsInfinite]

end Value

namespace Assertion

open Value

variable {v : Value} {result : Except String Value} {failure : AssertionFailure}

section OfValue

variable [PatternEngine]

theorem verify_ofValue_error (v : Value) (message : String) :
    (ofValue v).verify (.error message) = .error (.stepFailed message) := rfl

theorem verify_ofValue_ok (v actual : Value) : (ofValue v).verify (.ok actual) =
    if actual.isNear v then .ok () else .error (.mismatch v actual) := rfl

theorem verify_ofValue_eq_ok_iff : (ofValue v).verify result = .ok () ↔
    ∃ actual, result = .ok actual ∧
      (actual.CloseTo v ∨ actual.equals v = true ∧ ¬ v.IsInfinite) := by
  simp only [← isNear_iff]
  cases result with
  | error message => simp [verify_ofValue_error]
  | ok actual => simp [verify_ofValue_ok]

theorem failure_of_verify_ofValue (h : (ofValue v).verify result = .error failure) :
    (∃ message, result = .error message ∧ failure = .stepFailed message) ∨
      ∃ actual, result = .ok actual ∧ failure = .mismatch v actual := by
  cases result with
  | error message =>
      cases h
      exact Or.inl ⟨message, rfl, rfl⟩
  | ok actual =>
      rw [verify_ofValue_ok] at h
      split at h
      · cases h
      · cases h
        exact Or.inr ⟨actual, rfl, rfl⟩

/-- An assertion of a value is met by the results that are close to the value, and by those that are
equal to it unless it is infinite. So it accepts the equal results exactly when the value is not
infinite, and it can be met exactly when the value is neither infinite nor not-a-number. What it
refuses is a step that failed or a mismatch. -/
theorem verify_ofValue_exact (v : Value) :
    (∀ result, (ofValue v).verify result = .ok () ↔
      ∃ actual, result = .ok actual ∧
        (actual.CloseTo v ∨ actual.equals v = true ∧ ¬ v.IsInfinite)) ∧
    (∀ actual, actual.equals v = true →
      ((ofValue v).verify (.ok actual) = .ok () ↔ ¬ v.IsInfinite)) ∧
    ((∃ result, (ofValue v).verify result = .ok ()) ↔ v ≠ .float .nan ∧ ¬ v.IsInfinite) ∧
    (∀ result failure, (ofValue v).verify result = .error failure →
      (∃ message, result = .error message ∧ failure = .stepFailed message) ∨
        ∃ actual, result = .ok actual ∧ failure = .mismatch v actual) := by
  refine ⟨fun result => verify_ofValue_eq_ok_iff, fun actual hequals => ?_, ?_,
    fun result failure => failure_of_verify_ofValue⟩
  · constructor
    · intro haccepted
      obtain ⟨_, ⟨⟩, hclose | ⟨-, hfinite⟩⟩ := verify_ofValue_eq_ok_iff.mp haccepted
      · exact hclose.not_isInfinite
      · exact hfinite
    · intro hfinite
      exact verify_ofValue_eq_ok_iff.mpr ⟨actual, rfl, Or.inr ⟨hequals, hfinite⟩⟩
  · constructor
    · rintro ⟨result, haccepted⟩
      obtain ⟨actual, -, hclose | ⟨hequals, hfinite⟩⟩ := verify_ofValue_eq_ok_iff.mp haccepted
      · exact ⟨hclose.ne_nan, hclose.not_isInfinite⟩
      · refine ⟨?_, hfinite⟩
        rintro rfl
        cases (equals_nan actual).symm.trans hequals
    · rintro ⟨hnan, hfinite⟩
      have hself : v.equals v = true := (equals_self v).mpr hnan
      exact ⟨.ok v, verify_ofValue_eq_ok_iff.mpr ⟨v, rfl, Or.inr ⟨hself, hfinite⟩⟩⟩

end OfValue

def belowOne : Binary64 := .finite false ⟨1023 * (1 <<< 52) - 1, by decide⟩

/-- The first float above one. The gap lies between them, and so it is beyond the tolerance. -/
def aboveOne : Binary64 := .finite false ⟨1023 * (1 <<< 52) + 1, by decide⟩

/-- The integer one is met by the float below it and not by the one above, and either zero by the
other. -/
theorem verify_ofValue_exact_neighbours :
    (ofValue (.int 1)).verify (.ok (.float belowOne)) = .ok () ∧
      (ofValue (.int 1)).verify (.ok (.float aboveOne)) =
        .error (.mismatch (.int 1) (.float aboveOne)) ∧
      (ofValue (.float .zero)).verify (.ok (.float (.finite true .zero))) = .ok () := by
  obtain ⟨haccepts, -, -, hrefuses⟩ := verify_ofValue_exact (.int 1)
  obtain ⟨-, hequal, -⟩ := verify_ofValue_exact (.float .zero)
  refine ⟨?_, ?_, ?_⟩
  · exact (haccepts _).mpr ⟨.float belowOne, rfl, Or.inl (by decide +kernel)⟩
  · cases hresult : (ofValue (.int 1)).verify (.ok (.float aboveOne)) with
    | ok accepted =>
        obtain ⟨_, ⟨⟩, hmet⟩ := (haccepts _).mp hresult
        exact absurd hmet (by decide +kernel)
    | error failure =>
        obtain ⟨_, ⟨⟩, -⟩ | ⟨_, ⟨⟩, rfl⟩ := hrefuses _ _ hresult
        rfl
  · exact (hequal (.float (.finite true .zero)) (by decide)).mpr (by decide)

/-- A result that is the expected infinity is refused. -/
theorem verify_ofValue_infinity :
    (Value.float (.infinity false)).equals (.float (.infinity false)) = true ∧
      (ofValue (.float (.infinity false))).verify (.ok (.float (.infinity false))) =
        .error (.mismatch (.float (.infinity false)) (.float (.infinity false))) := by
  decide +kernel

end Assertion

end MethodSynthesis
