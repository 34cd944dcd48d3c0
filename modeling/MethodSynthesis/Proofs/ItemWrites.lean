import MethodSynthesis.Item.Basic
import MethodSynthesis.Proofs.Outcomes

/-!
# Reads and writes of items

A read answers with what stands in a slot or in the definition. A write that succeeds changes one
slot or the enabled flag. What the item is, its definition, its choices and its facets, no write
changes.
-/

namespace MethodSynthesis

open Outcomes

theorem Value.isNull_iff {v : Value} : v.isNull = true ↔ v = .null := by
  cases v <;> simp [Value.isNull]

namespace ItemDefinition

theorem coerce_eq_ok_iff {d : ItemDefinition} {v stored : Value} :
    d.coerce v = .ok stored ↔ d.type.store? v = some stored := by
  unfold coerce
  split <;> simp_all

theorem checkRange_eq_ok_iff {d : ItemDefinition} {v : Value} {u : Unit} :
    d.checkRange v = .ok u ↔ ∀ x, v.number? = some x → d.violation? x = none := by
  unfold checkRange
  split
  · simp_all
  · rename_i x hx
    cases hviolation : d.violation? x <;> simp_all

theorem checkRange_eq_error_iff {d : ItemDefinition} {v : Value} {e : ItemError} :
    d.checkRange v = .error e ↔ ∃ x violation, v.number? = some x ∧
      d.violation? x = some violation ∧ e = .outOfRange d.name v violation := by
  unfold checkRange
  split
  · rename_i hnone
    simp [hnone]
  · rename_i x hx
    cases hviolation : d.violation? x with
    | none => simp [hx, hviolation]
    | some violation => simp [hx, hviolation, eq_comm]

end ItemDefinition

/-! ## Slots of a value item -/

namespace ValueItem

theorem checkSlot_eq_ok_iff {item : ValueItem} {slot : Nat} {u : Unit} :
    item.checkSlot slot = .ok u ↔ slot < item.values.length := by
  unfold checkSlot
  split <;> simp_all

theorem value_eq_ok_iff {item : ValueItem} {slot : Nat} {v : Value} :
    item.value slot = .ok v ↔ item.values[slot]? = some v := by
  unfold value
  split <;> simp_all

theorem discreteIndex_eq_ok_iff {item : ValueItem} {slot : Nat} {choice? : Option Nat} :
    item.discreteIndex slot = .ok choice? ↔
      ∃ v, item.values[slot]? = some v ∧ choice? = item.choiceOf? v := by
  simp only [discreteIndex, bind_eq_ok_iff, pure_eq_ok_iff, value_eq_ok_iff]

theorem choiceAt_eq_ok_iff {d : ItemDefinition} {choices : List Value} {choice : Nat}
    {stored : Value} : choiceAt d choices choice = .ok stored ↔ choices[choice]? = some stored := by
  unfold choiceAt
  split <;> simp_all

theorem checkChoice_eq_ok_iff {item : ValueItem} {stored : Value} {u : Unit} :
    item.checkChoice stored = .ok u ↔
      item.choices = [] ∨ stored = .null ∨ item.choices.any stored.equals = true := by
  unfold checkChoice
  split <;> simp_all [or_assoc, Value.isNull_iff]

theorem checkChoice_eq_error_iff {item : ValueItem} {stored : Value} {e : ItemError} :
    item.checkChoice stored = .error e ↔
      item.choices ≠ [] ∧ stored ≠ .null ∧ item.choices.any stored.equals = false ∧
        e = .notAChoice item.definition.name stored := by
  have hokay : item.checkChoice stored = .ok () ↔
      item.choices = [] ∨ stored = .null ∨ item.choices.any stored.equals = true :=
    checkChoice_eq_ok_iff
  cases hcheck : item.checkChoice stored with
  | ok u =>
      simp only [hcheck, true_iff] at hokay
      simp only [reduceCtorEq, false_iff, not_and]
      intro hdiscrete hnull hany
      simp [hdiscrete, hnull, hany] at hokay
  | error refusal =>
      simp only [hcheck, reduceCtorEq, false_iff, not_or, Bool.not_eq_true] at hokay
      unfold checkChoice at hcheck
      split at hcheck
      · cases hcheck
      · cases hcheck
        simp [hokay, eq_comm]

theorem admit?_eq_ok_iff {item : ValueItem} {v stored : Value} :
    item.admit? v = .ok stored ↔
      item.definition.coerce v = .ok stored ∧ item.definition.checkRange stored = .ok () ∧
        item.checkChoice stored = .ok () := by
  simp only [admit?, bind_eq_ok_iff, pure_eq_ok_iff]
  constructor
  · intro h
    obtain ⟨admitted, hcoerce, _, hrange, _, hchoice, rfl⟩ := h
    exact ⟨hcoerce, hrange, hchoice⟩
  · intro h
    obtain ⟨hcoerce, hrange, hchoice⟩ := h
    exact ⟨stored, hcoerce, (), hrange, (), hchoice, rfl⟩

theorem admit?_eq_error_iff {item : ValueItem} {v stored : Value} {e : ItemError}
    (hstore : item.definition.type.store? v = some stored) :
    item.admit? v = .error e ↔ item.definition.checkRange stored = .error e ∨
      item.definition.checkRange stored = .ok () ∧ item.checkChoice stored = .error e := by
  have hcoerce := ItemDefinition.coerce_eq_ok_iff.mpr hstore
  rw [admit?, hcoerce]
  cases hrange : item.definition.checkRange stored with
  | error refusal => simp [bind_eq_error_iff, hrange]
  | ok u =>
      cases hchoice : item.checkChoice stored <;>
        simp [bind_eq_error_iff, hrange, hchoice, pure, Except.pure]

theorem admit?_congr {item other : ValueItem} (hdefinition : other.definition = item.definition)
    (hchoices : other.choices = item.choices) (v : Value) : other.admit? v = item.admit? v := by
  simp only [admit?, checkChoice, hdefinition, hchoices]

theorem setValue_eq_ok_iff {item after : ValueItem} {slot : Nat} {v : Value} :
    item.setValue slot v = .ok after ↔
      slot < item.values.length ∧
        ∃ stored, item.admit? v = .ok stored ∧ after = item.withValue slot stored := by
  simp only [setValue, bind_eq_ok_iff, pure_eq_ok_iff, exists_const, checkSlot_eq_ok_iff]

theorem setDiscreteIndex_eq_ok_iff {item after : ValueItem} {slot choice : Nat} :
    item.setDiscreteIndex slot choice = .ok after ↔
      slot < item.values.length ∧
        ∃ stored, item.choices[choice]? = some stored ∧ after = item.withValue slot stored := by
  simp only [setDiscreteIndex, bind_eq_ok_iff, pure_eq_ok_iff, exists_const, checkSlot_eq_ok_iff,
    choiceAt_eq_ok_iff]

@[simp] theorem withValue_definition (item : ValueItem) (slot : Nat) (stored : Value) :
    (item.withValue slot stored).definition = item.definition := rfl

@[simp] theorem withValue_choices (item : ValueItem) (slot : Nat) (stored : Value) :
    (item.withValue slot stored).choices = item.choices := rfl

@[simp] theorem withValue_values (item : ValueItem) (slot : Nat) (stored : Value) :
    (item.withValue slot stored).values = item.values.set slot stored := rfl

end ValueItem

/-! ## Writes through a facet -/

def ItemRead.capability : ItemRead → Capability
  | .value _ => .value
  | .enabled => .optional
  | .choice _ => .discrete

def ItemWrite.capability : ItemWrite → Capability
  | .value _ _ => .value
  | .enabled _ => .optional
  | .choice _ _ => .discrete

namespace Item

variable {α : Type}

theorem liftError_eq_ok_iff {x : Except ItemError α} {a : α} : liftError x = .ok a ↔ x = .ok a := by
  cases x <;> simp [liftError]

theorem liftError_ne_absent {x : Except ItemError α} {capability : Capability} :
    liftError x ≠ .error (.absent capability) := by
  cases x <;> simp [liftError]

theorem withValueFacet_eq_ok_iff {item : Item} {f : ValueItem → Except ItemError α} {a : α} :
    item.withValueFacet f = .ok a ↔ ∃ x, item = .value x ∧ f x = .ok a := by
  cases item <;> simp [withValueFacet, valueFacet?, liftError_eq_ok_iff]

theorem discreteFacet?_eq_some_iff {item : Item} {x : ValueItem} :
    item.discreteFacet? = some x ↔ item = .value x ∧ x.choices ≠ [] := by
  cases item with
  | switch _ => simp [discreteFacet?]
  | value y =>
      simp only [discreteFacet?, value.injEq]
      split
      · rename_i hempty
        rw [List.isEmpty_iff] at hempty
        simp only [reduceCtorEq, false_iff, not_and]
        intro heq hne
        subst heq
        exact hne hempty
      · rename_i hempty
        rw [List.isEmpty_iff] at hempty
        simp only [Option.some.injEq]
        constructor
        · intro heq
          subst heq
          exact ⟨rfl, hempty⟩
        · exact And.left

theorem withDiscreteFacet_eq_ok_iff {item : Item} {f : ValueItem → Except ItemError α} {a : α} :
    item.withDiscreteFacet f = .ok a ↔ ∃ x, item = .value x ∧ x.choices ≠ [] ∧ f x = .ok a := by
  unfold withDiscreteFacet
  cases h : item.discreteFacet? with
  | none =>
      simp only [reduceCtorEq, false_iff, not_exists, not_and]
      intro x hitem hchoices
      rw [discreteFacet?_eq_some_iff.mpr ⟨hitem, hchoices⟩] at h
      cases h
  | some y =>
      obtain ⟨rfl, hchoices⟩ := discreteFacet?_eq_some_iff.mp h
      simp only [liftError_eq_ok_iff, value.injEq]
      constructor
      · intro hf
        exact ⟨y, rfl, hchoices, hf⟩
      · intro h
        obtain ⟨x, rfl, -, hf⟩ := h
        exact hf

/-! ## Reads of items that hold values -/

theorem getValue_value_eq_ok_iff {item : ValueItem} {slot : Nat} {v : Value} :
    (value item).getValue slot = .ok v ↔ item.values[slot]? = some v := by
  simp [getValue, withValueFacet_eq_ok_iff, ValueItem.value_eq_ok_iff]

theorem discreteIndex_value_eq_ok_iff {item : ValueItem} (hchoices : item.choices ≠ [])
    {slot : Nat} {choice? : Option Nat} :
    (value item).discreteIndex slot = .ok choice? ↔
      ∃ v, item.values[slot]? = some v ∧ choice? = item.choiceOf? v := by
  simp [discreteIndex, withDiscreteFacet_eq_ok_iff, ValueItem.discreteIndex_eq_ok_iff, hchoices]

theorem choiceLabel?_value {item : ValueItem} (hchoices : item.choices ≠ []) (choice : Nat) :
    (value item).choiceLabel? choice = .ok (item.choiceLabel? choice) := by
  simp [choiceLabel?, withDiscreteFacet_eq_ok_iff, hchoices]

theorem numberOfChoices_value {item : ValueItem} (hchoices : item.choices ≠ []) :
    (value item).numberOfChoices = .ok item.choices.length := by
  simp [numberOfChoices, withDiscreteFacet_eq_ok_iff, hchoices, ValueItem.numberOfChoices]

/-! ## Writes -/

theorem write_value_eq_ok_iff {item after : Item} {slot : Nat} {v : Value} :
    item.write (.value slot v) = .ok after ↔
      ∃ x stored, item = .value x ∧ slot < x.values.length ∧ x.admit? v = .ok stored ∧
        after = .value (x.withValue slot stored) := by
  simp only [write, map_eq_ok_iff, withValueFacet_eq_ok_iff, ValueItem.setValue_eq_ok_iff]
  constructor
  · intro h
    obtain ⟨_, ⟨x, rfl, hslot, stored, hstored, rfl⟩, rfl⟩ := h
    exact ⟨x, stored, rfl, hslot, hstored, rfl⟩
  · intro h
    obtain ⟨x, stored, rfl, hslot, hstored, rfl⟩ := h
    exact ⟨_, ⟨x, rfl, hslot, stored, hstored, rfl⟩, rfl⟩

theorem write_value_eq_error_iff {item : ValueItem} {slot : Nat} {v : Value} {e : FacetError}
    (hslot : slot < item.values.length) :
    (value item).write (.value slot v) = .error e ↔
      ∃ refusal, item.admit? v = .error refusal ∧ e = .refused refusal := by
  have hcheck : item.checkSlot slot = .ok () := ValueItem.checkSlot_eq_ok_iff.mpr hslot
  simp only [write, map_eq_error_iff, withValueFacet, valueFacet?, ValueItem.setValue, hcheck]
  cases item.admit? v with
  | error refusal => simp [bind, Except.bind, liftError, eq_comm]
  | ok stored => simp [bind, Except.bind, liftError, pure, Except.pure]

theorem write_choice_eq_ok_iff {item after : Item} {slot choice : Nat} :
    item.write (.choice slot choice) = .ok after ↔
      ∃ x stored, item = .value x ∧ slot < x.values.length ∧ x.choices[choice]? = some stored ∧
        after = .value (x.withValue slot stored) := by
  simp only [write, map_eq_ok_iff, withDiscreteFacet_eq_ok_iff,
    ValueItem.setDiscreteIndex_eq_ok_iff]
  constructor
  · intro h
    obtain ⟨_, ⟨x, rfl, -, hslot, stored, hstored, rfl⟩, rfl⟩ := h
    exact ⟨x, stored, rfl, hslot, hstored, rfl⟩
  · intro h
    obtain ⟨x, stored, rfl, hslot, hstored, rfl⟩ := h
    refine ⟨_, ⟨x, rfl, ?_, hslot, stored, hstored, rfl⟩, rfl⟩
    intro hempty
    rw [hempty] at hstored
    cases hstored

theorem write_enabled_eq_ok_iff {item after : Item} {enabled : Bool} :
    item.write (.enabled enabled) = .ok after ↔
      item.hasOptional = true ∧ after = item.withEnabled enabled := by
  cases h : item.hasOptional with
  | false => simp [write, h]
  | true => simp [write, h, eq_comm]

theorem writeAll_of_error {item : Item} {w : ItemWrite} {e : FacetError}
    (h : item.write w = .error e) : item.writeAll [w] = item := by
  simp [writeAll, h, Except.toOption]

/-! ## What no write changes -/

theorem capabilities_value (x : ValueItem) :
    (value x).capabilities = ⟨true, x.definition.optional, !x.choices.isEmpty⟩ := by
  cases h : x.choices.isEmpty <;>
    simp [capabilities, valueFacet?, hasOptional, definition, discreteFacet?, h]

@[simp] theorem withEnabled_definition (item : Item) (enabled : Bool) :
    (item.withEnabled enabled).definition = item.definition := by
  cases item <;> rfl

@[simp] theorem withEnabled_capabilities (item : Item) (enabled : Bool) :
    (item.withEnabled enabled).capabilities = item.capabilities := by
  cases item with
  | value x => simp only [withEnabled, capabilities_value]
  | switch x => rfl

theorem capabilities_withValue (x : ValueItem) (slot : Nat) (stored : Value) :
    (value (x.withValue slot stored)).capabilities = (value x).capabilities := by
  simp only [capabilities_value, ValueItem.withValue_definition, ValueItem.withValue_choices]

theorem write_definition {item after : Item} {w : ItemWrite} (h : item.write w = .ok after) :
    after.definition = item.definition := by
  cases w with
  | value slot v =>
      obtain ⟨x, stored, rfl, -, -, rfl⟩ := write_value_eq_ok_iff.mp h
      rfl
  | enabled enabled =>
      obtain ⟨-, rfl⟩ := write_enabled_eq_ok_iff.mp h
      exact withEnabled_definition item enabled
  | choice slot choice =>
      obtain ⟨x, stored, rfl, -, -, rfl⟩ := write_choice_eq_ok_iff.mp h
      rfl

theorem write_name {item after : Item} {w : ItemWrite} (h : item.write w = .ok after) :
    after.name = item.name := by
  rw [name, name, write_definition h]

theorem write_capabilities {item after : Item} {w : ItemWrite} (h : item.write w = .ok after) :
    after.capabilities = item.capabilities := by
  cases w with
  | value slot v =>
      obtain ⟨x, stored, rfl, -, -, rfl⟩ := write_value_eq_ok_iff.mp h
      exact capabilities_withValue x slot stored
  | enabled enabled =>
      obtain ⟨-, rfl⟩ := write_enabled_eq_ok_iff.mp h
      exact withEnabled_capabilities item enabled
  | choice slot choice =>
      obtain ⟨x, stored, rfl, -, -, rfl⟩ := write_choice_eq_ok_iff.mp h
      exact capabilities_withValue x slot stored

/-! ## Facets that are there -/

theorem withValueFacet_ne_absent {item : Item} {f : ValueItem → Except ItemError α}
    {capability : Capability} (h : item.capabilities.value = true) :
    item.withValueFacet f ≠ .error (.absent capability) := by
  obtain ⟨x, hx⟩ := Option.isSome_iff_exists.mp h
  simp only [withValueFacet, hx]
  exact liftError_ne_absent

theorem withDiscreteFacet_ne_absent {item : Item} {f : ValueItem → Except ItemError α}
    {capability : Capability} (h : item.capabilities.discrete = true) :
    item.withDiscreteFacet f ≠ .error (.absent capability) := by
  obtain ⟨x, hx⟩ := Option.isSome_iff_exists.mp h
  simp only [withDiscreteFacet, hx]
  exact liftError_ne_absent

theorem read_ne_absent {item : Item} {r : ItemRead} {capability : Capability}
    (h : item.capabilities.has r.capability = true) :
    item.read r ≠ .error (.absent capability) := by
  cases r with
  | value slot => exact withValueFacet_ne_absent h
  | enabled =>
      have hoptional : item.hasOptional = true := h
      simp [read, isEnabled, hoptional, Except.map]
  | choice slot =>
      simp only [read, ne_eq, map_eq_error_iff]
      exact withDiscreteFacet_ne_absent h

theorem write_ne_absent {item : Item} {w : ItemWrite} {capability : Capability}
    (h : item.capabilities.has w.capability = true) :
    item.write w ≠ .error (.absent capability) := by
  cases w with
  | value slot v =>
      simp only [write, ne_eq, map_eq_error_iff]
      exact withValueFacet_ne_absent h
  | enabled enabled =>
      have hoptional : item.hasOptional = true := h
      simp [write, hoptional]
  | choice slot choice =>
      simp only [write, ne_eq, map_eq_error_iff]
      exact withDiscreteFacet_ne_absent h

end Item

end MethodSynthesis
