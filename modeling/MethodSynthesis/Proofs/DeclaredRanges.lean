import MethodSynthesis.Proofs.RangeChecks
import MethodSynthesis.Proofs.SlotInvariants

/-!
# Declared ranges

The bounds of an item are checked when a value is written, and only then. So a slot can lie outside
the bounds: by the initial value, by a choice, by not-a-number, and by an integer that rounding
carries over a bound. These are the only ways.
-/

namespace MethodSynthesis

namespace ValueItem

open ItemDefinition

variable {item : ValueItem} {v stored : Value}

theorem admit?_eq_ok_iff_of_plain (hplain : item.choices = []) :
    item.admit? v = .ok stored ↔ item.definition.type.store? v = some stored ∧
      ∀ x, stored.number? = some x → item.definition.violation? x = none := by
  rw [admit?_eq_ok_iff, ItemDefinition.coerce_eq_ok_iff, ItemDefinition.checkRange_eq_ok_iff,
    checkChoice_eq_ok_iff]
  simp [hplain]

theorem within_of_admit?_of_plain (bounds : item.definition.HasNumericBounds)
    (hplain : item.choices = []) (hdouble : item.definition.type ≠ .double)
    (hint : item.definition.type = .int → item.definition.RoundingIsHarmless)
    (h : item.admit? v = .ok stored) : item.definition.Within stored := by
  obtain ⟨hstore, hrange⟩ := (admit?_eq_ok_iff_of_plain hplain).mp h
  cases htype : item.definition.type with
  | double => exact absurd htype hdouble
  | int =>
      rw [htype] at hstore
      cases v <;> cases hstore
      · trivial
      · have hpassed := hrange _ rfl
        rw [violation?_eq_none_iff_within bounds (Binary64.ofInt_ne_nan _)] at hpassed
        exact hint htype _ hpassed
  | string =>
      rw [htype] at hstore
      cases v <;> cases hstore <;> trivial
  | void =>
      rw [htype] at hstore
      cases v <;> cases hstore
      trivial

theorem within_of_admit?_of_discrete (hdiscrete : item.choices ≠ [])
    (hchoices : ∀ choice ∈ item.choices, item.definition.Within choice)
    (h : item.admit? v = .ok stored) : item.definition.Within stored := by
  obtain ⟨-, -, hchoice⟩ := admit?_eq_ok_iff.mp h
  rcases (checkChoice_eq_ok_iff.mp hchoice).resolve_left hdiscrete with rfl | hany
  · trivial
  · obtain ⟨choice, hmem, hequals⟩ := List.any_eq_true.mp hany
    exact .of_equals hequals (hchoices choice hmem)

theorem within_of_admit? (bounds : item.definition.HasNumericBounds)
    (hchoices : ∀ choice ∈ item.choices, item.definition.Within choice)
    (hplain : item.choices = [] → item.definition.type ≠ .double ∧
      (item.definition.type = .int → item.definition.RoundingIsHarmless))
    (h : item.admit? v = .ok stored) : item.definition.Within stored := by
  by_cases hdiscrete : item.choices = []
  · obtain ⟨hdouble, hint⟩ := hplain hdiscrete
    exact within_of_admit?_of_plain bounds hdiscrete hdouble hint h
  · exact within_of_admit?_of_discrete hdiscrete hchoices h

theorem within_of_stores {w : ItemWrite}
    (hchoices : ∀ choice ∈ item.choices, item.definition.Within choice)
    (hadmitted : ∀ slot v, w = .value slot v → item.admit? v = .ok stored →
      item.definition.Within stored)
    (h : item.Stores w stored) : item.definition.Within stored := by
  cases w with
  | value slot v => exact hadmitted slot v rfl h
  | enabled enabled => exact h.elim
  | choice slot choice => exact hchoices stored (List.mem_of_getElem? h)

end ValueItem

namespace Item

open ItemDefinition ValueItem

variable {d : ItemDefinition} {item : ValueItem}

/-- Every slot behind every run of writes is within the declared bounds exactly when the initial
values and the choices are and, unless the item is discrete, it holds no floats and rounding carries
no integer over a bound. -/
theorem slots_within_iff (made : ValueItem.ofDefinition d = .ok item)
    (bounds : d.HasNumericBounds) :
    (∀ writes, ∀ v ∈ ((value item).writeAll writes).slots, d.Within v) ↔
      d.numberOfValues = 0 ∨
        (∀ v ∈ item.values, d.Within v) ∧ (∀ choice ∈ item.choices, d.Within choice) ∧
          (item.choices = [] → d.type ≠ .double ∧ (d.type = .int → d.RoundingIsHarmless)) := by
  have hlength := length_values_of_ofDefinition made
  obtain rfl := definition_of_ofDefinition made
  constructor
  · intro h
    rcases Nat.eq_zero_or_pos item.definition.numberOfValues with hnone | hslot
    · exact Or.inl hnone
    rw [← hlength] at hslot
    have hadmitted {v stored} (hstored : item.admit? v = .ok stored) :
        item.definition.Within stored :=
      h [.value 0 v] stored (mem_slots_of_admit? hslot hstored)
    refine Or.inr ⟨h [], fun choice hchoice => ?_,
      fun hplain => ⟨fun hdouble => ?_, fun hint i hi => ?_⟩⟩
    · obtain ⟨n, hn⟩ := List.mem_iff_getElem?.mp hchoice
      exact h [.choice 0 n] choice (mem_slots_of_choice hslot hn)
    · have hnan : item.admit? (.float .nan) = .ok (.float .nan) := by
        rw [admit?_eq_ok_iff_of_plain hplain, hdouble]
        refine ⟨rfl, ?_⟩
        rintro x ⟨⟩
        exact violation?_nan _
      exact not_within_nan bounds (hadmitted hnan)
    · have hadmit : item.admit? (.int i) = .ok (.int i) := by
        rw [admit?_eq_ok_iff_of_plain hplain, hint]
        refine ⟨rfl, ?_⟩
        rintro x ⟨⟩
        exact (violation?_eq_none_iff_within bounds (Binary64.ofInt_ne_nan _)).mpr hi
      exact hadmitted hadmit
  · intro h writes v hv
    rcases h with hnone | ⟨hvalues, hchoices, hplain⟩
    · have hslots := length_slots_writeAll item writes
      rw [hlength, hnone, List.length_eq_zero_iff] at hslots
      rw [hslots] at hv
      cases hv
    · have hstored : ∀ w ∈ writes, ∀ stored, item.Stores w stored →
          item.definition.Within stored := fun _ _ _ =>
        within_of_stores hchoices fun _ _ _ => within_of_admit? bounds hchoices hplain
      exact forall_mem_slots_writeAll hvalues writes hstored v hv

def attempts : ItemDefinition where
  name := "attempts"
  type := .int
  default := some (.int 3)
  min := some (.int 1)
  max := some (.int 10)

theorem slots_within_iff_attempts :
    attempts.HasNumericBounds ∧ ∃ item, ValueItem.ofDefinition attempts = .ok item ∧
      ∀ writes, ∀ v ∈ ((value item).writeAll writes).slots, attempts.Within v := by
  have bounds : attempts.HasNumericBounds := ⟨Or.inl nofun, by decide, by decide⟩
  have small : attempts.HasSmallBounds := by
    intro bound hbound
    rcases hbound with hmin | hmax
    · obtain rfl : .int 1 = bound := Option.some.inj hmin
      exact ⟨_, rfl, by decide +kernel⟩
    · obtain rfl : .int 10 = bound := Option.some.inj hmax
      exact ⟨_, rfl, by decide +kernel⟩
  have made : ValueItem.ofDefinition attempts = .ok ⟨attempts, [], [.int 3], false⟩ := by
    decide +kernel
  have initial : ∀ v ∈ [Value.int 3], attempts.Within v := by decide +kernel
  have harmless : attempts.type ≠ .double ∧ (attempts.type = .int → attempts.RoundingIsHarmless) :=
    ⟨nofun, fun _ => roundingIsHarmless_of_small small⟩
  exact ⟨bounds, _, made, (slots_within_iff made bounds).mpr
    (Or.inr ⟨initial, nofun, fun _ => harmless⟩)⟩

def share : ItemDefinition where
  name := "share"
  type := .double
  min := some (.float (.ofInt 0))
  max := some (.float (.ofInt 1))

/-- A share takes not-a-number by a write, and any number as its default or as a choice. -/
theorem slots_not_within_share :
    share.HasNumericBounds ∧
      (∃ item, ValueItem.ofDefinition share = .ok item ∧
        ((value item).writeAll [.value 0 (.float .nan)]).slots = [.float .nan] ∧
        ¬ share.Within (.float .nan)) ∧
      (∃ item, ValueItem.ofDefinition { share with default := some (.int 5) } = .ok item ∧
        ((value item).writeAll []).slots = [.float (.ofInt 5)] ∧
        ¬ item.definition.Within (.float (.ofInt 5))) ∧
      ∃ item, ValueItem.ofDefinition (share.withChoice "much" (.int 5)) = .ok item ∧
        ((value item).writeAll [.choice 0 0]).slots = [.float (.ofInt 5)] ∧
        ¬ item.definition.Within (.float (.ofInt 5)) := by
  refine ⟨⟨Or.inl nofun, by decide +kernel, by decide +kernel⟩, ⟨⟨share, [], [.null], false⟩, ?_⟩,
    ⟨⟨{ share with default := some (.int 5) }, [], [.float (.ofInt 5)], false⟩, ?_⟩,
    ⟨share.withChoice "much" (.int 5), [.float (.ofInt 5)], [.null], false⟩, ?_⟩
  all_goals decide +kernel

end Item

end MethodSynthesis
