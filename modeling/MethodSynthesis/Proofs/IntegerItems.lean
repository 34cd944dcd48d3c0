import MethodSynthesis.Proofs.DeclaredRanges
import MethodSynthesis.Proofs.RangeRefusals

/-!
# Integers written to integer items

A plain integer item takes every integer between its integer bounds. Beyond a bound it takes those
that rounding joins with the bound, and refuses all others for their range. So its check is exact
on all integers exactly when the bounds are sharp.
-/

namespace MethodSynthesis

namespace ValueItem

open ItemDefinition

variable {item : ValueItem} {bounds : IntegerBounds} {i : Int64}

/-- A plain integer item admits the integers that its bounds contain when rounded. -/
theorem admit?_int_eq_ok_iff (htype : item.definition.type = .int) (hplain : item.choices = [])
    (declared : bounds.DeclaredBy item.definition) {stored : Value} :
    item.admit? (.int i) = .ok stored ↔ stored = .int i ∧ bounds.ContainsRounded i := by
  rw [admit?_eq_ok_iff_of_plain hplain, htype,
    ← IntegerBounds.violation?_ofInt_eq_none_iff declared]
  constructor
  · rintro ⟨⟨⟩, hpassed⟩
    exact ⟨rfl, hpassed _ rfl⟩
  · rintro ⟨rfl, hpassed⟩
    refine ⟨rfl, ?_⟩
    rintro x ⟨⟩
    exact hpassed

theorem outOfRange_of_admit?_int (htype : item.definition.type = .int) (hplain : item.choices = [])
    {e : ItemError} (h : item.admit? (.int i) = .error e) :
    ∃ violation, e = .outOfRange item.definition.name (.int i) violation := by
  have hstore : item.definition.type.store? (.int i) = some (.int i) := by
    rw [htype]
    rfl
  rcases (admit?_eq_error_iff hstore).mp h with hrange | ⟨-, hchoice⟩
  · obtain ⟨x, violation, -, -, rfl⟩ := checkRange_eq_error_iff.mp hrange
    exact ⟨violation, rfl⟩
  · exact absurd hplain (checkChoice_eq_error_iff.mp hchoice).1

end ValueItem

namespace Item

open ValueItem

variable {d : ItemDefinition} {item : ValueItem} {bounds : IntegerBounds}

/-- In every state of a plain integer item, and at every slot, a write of an integer succeeds
exactly when the integer lies between the bounds or has one float with the bound that it lies
beyond, and is refused for its range otherwise. It never refuses an integer between the bounds, and
takes none beyond them exactly when the bounds are sharp. -/
theorem write_int_iff (made : ValueItem.ofDefinition d = .ok item) (htype : d.type = .int)
    (hplain : d.discrete = []) (declared : bounds.DeclaredBy d) {writes : List ItemWrite}
    {now : Item} (reached : (value item).writeAll writes = now) {slot : Nat}
    (hslot : slot < d.numberOfValues) :
    (∀ i, (∃ after, now.write (.value slot (.int i)) = .ok after) ↔ bounds.ContainsRounded i) ∧
    (∀ i after, now.write (.value slot (.int i)) = .ok after →
      after.getValue slot = .ok (.int i)) ∧
    (∀ i e, now.write (.value slot (.int i)) = .error e →
      (∃ violation, e = .refused (.outOfRange d.name (.int i) violation)) ∧
        now.writeAll [.value slot (.int i)] = now ∧ ¬ bounds.Contains i) ∧
    (bounds.Proper →
      ((∀ i, (∃ after, now.write (.value slot (.int i)) = .ok after) ↔ bounds.Contains i) ↔
        bounds.Sharp)) := by
  obtain ⟨last, hlast, hframe⟩ := exists_sameFrame_writeAll item writes
  obtain rfl : now = value last := reached.symm.trans hlast
  have hlength : last.values.length = d.numberOfValues :=
    hframe.slots.trans (length_values_of_ofDefinition made)
  have hchoices : last.choices = [] :=
    hframe.choices.trans ((choices_eq_nil_iff_of_ofDefinition made).mpr hplain)
  obtain rfl : last.definition = d :=
    hframe.definition.trans (definition_of_ofDefinition made)
  rw [← hlength] at hslot
  have haccepted : ∀ i, (∃ after, (value last).write (.value slot (.int i)) = .ok after) ↔
      bounds.ContainsRounded i := by
    intro i
    constructor
    · intro ⟨after, hafter⟩
      obtain ⟨x, stored, hitem, -, hadmit, -⟩ := write_value_eq_ok_iff.mp hafter
      obtain rfl := value.inj hitem
      exact ((admit?_int_eq_ok_iff htype hchoices declared).mp hadmit).2
    · intro hrounded
      have hadmit : last.admit? (.int i) = .ok (.int i) :=
        (admit?_int_eq_ok_iff htype hchoices declared).mpr ⟨rfl, hrounded⟩
      exact ⟨_, write_value_eq_ok_iff.mpr ⟨last, _, rfl, hslot, hadmit, rfl⟩⟩
  refine ⟨haccepted, fun i after hafter => ?_, fun i e hrefused => ?_, fun proper => ?_⟩
  · obtain ⟨x, stored, hitem, -, hadmit, rfl⟩ := write_value_eq_ok_iff.mp hafter
    obtain rfl := value.inj hitem
    obtain ⟨rfl, -⟩ := (admit?_int_eq_ok_iff htype hchoices declared).mp hadmit
    exact getValue_value_eq_ok_iff.mpr (List.getElem?_set_self hslot)
  · obtain ⟨refusal, hadmit, rfl⟩ := (write_value_eq_error_iff hslot).mp hrefused
    obtain ⟨violation, rfl⟩ := outOfRange_of_admit?_int htype hchoices hadmit
    refine ⟨⟨violation, rfl⟩, writeAll_of_error hrefused, fun hcontains => ?_⟩
    obtain ⟨after, hafter⟩ := (haccepted i).mpr hcontains.rounded
    rw [hrefused] at hafter
    cases hafter
  · simp only [haccepted, IntegerBounds.sharp_iff proper]
    constructor
    · intro hexact i hrounded
      exact (hexact i).mp hrounded
    · intro hsharp i
      exact ⟨hsharp i, IntegerBounds.Contains.rounded⟩

/-- The steps of a pedometer in two slots, up to the last whole number of 53 bits either way. -/
def steps : ItemDefinition where
  name := "steps"
  type := .int
  numberOfValues := 2
  default := some (.int 0)
  min := some (.int (-9007199254740991))
  max := some (.int 9007199254740991)

def stepBounds : IntegerBounds := ⟨some (-9007199254740991), some 9007199254740991⟩

theorem write_int_iff_steps :
    ∃ item, ValueItem.ofDefinition steps = .ok item ∧
      ∀ i, (∃ after, ((value item).writeAll [.value 0 (.int 7)]).write (.value 1 (.int i)) =
        .ok after) ↔ -9007199254740991 ≤ i ∧ i ≤ 9007199254740991 := by
  have made : ValueItem.ofDefinition steps = .ok ⟨steps, [], [.int 0, .int 0], false⟩ := by
    decide +kernel
  have declared : stepBounds.DeclaredBy steps := ⟨rfl, rfl⟩
  have hslot : 1 < steps.numberOfValues := by decide
  have proper : stepBounds.Proper := by
    rintro low ⟨⟩ high ⟨⟩
    decide
  have sharp : stepBounds.Sharp := by
    apply IntegerBounds.sharp_of_small
    · rintro low ⟨⟩
      decide
    · rintro high ⟨⟩
      decide
  obtain ⟨-, -, -, hexact⟩ := write_int_iff made rfl rfl declared
    (rfl : (value ⟨steps, [], [.int 0, .int 0], false⟩).writeAll [.value 0 (.int 7)] = _) hslot
  refine ⟨_, made, fun i => ((hexact proper).mpr sharp i).trans ?_⟩
  simp [IntegerBounds.Contains, stepBounds]

def count : ItemDefinition where
  name := "count"
  type := .int
  max := some (.int 9007199254740992)

/-- The integer behind 2^53 has the float of 2^53, and so it passes a bound of 2^53. -/
theorem write_int_beyond_count :
    ∃ item, ValueItem.ofDefinition count = .ok item ∧ count.type = .int ∧ count.discrete = [] ∧
      IntegerBounds.DeclaredBy ⟨none, some 9007199254740992⟩ count ∧
      ((value item).write (.value 0 (.int 9007199254740993))).isOk = true ∧
      ((value item).writeAll [.value 0 (.int 9007199254740993)]).getValue 0 =
        .ok (.int 9007199254740993) ∧
      ¬ IntegerBounds.Contains ⟨none, some 9007199254740992⟩ 9007199254740993 := by
  refine ⟨⟨count, [], [.null], false⟩, by decide +kernel, rfl, rfl, ⟨rfl, rfl⟩, by decide +kernel,
    by decide +kernel, ?_⟩
  intro hcontains
  exact absurd (hcontains.2 _ rfl) (by decide)

end Item

end MethodSynthesis
