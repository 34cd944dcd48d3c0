import MethodSynthesis.Proofs.SlotInvariants

/-!
# What operations leave as it is

An item keeps the facets, the number of slots and the choices that its definition gives it, and its
slots hold null or values of its type, whatever is asked of it. The labels stand in the definition
and the stored choices in the item; they belong together position by position.
-/

namespace MethodSynthesis

open Outcomes

/-! ## Types of slots -/

/-- The values that the slots of an item of a type hold: null, and values of one kind. -/
def ItemType.Holds : ItemType → Value → Prop
  | _, .null => True
  | .double, .float _ => True
  | .int, .int _ => True
  | .string, .string _ => True
  | _, _ => False

theorem ItemType.holds_of_store? {type : ItemType} {v stored : Value}
    (h : type.store? v = some stored) : type.Holds stored := by
  cases type <;> cases v <;> cases h <;> trivial

/-! ## Operations -/

inductive ItemOperation where
  | write (w : ItemWrite)
  | read (r : ItemRead)
  | numberOfValues
  | numberOfChoices
  | choiceLabel (choice : Nat)

def ItemOperation.write? : ItemOperation → Option ItemWrite
  | .write w => some w
  | _ => none

namespace Item

/-- Whether the item does what it is asked, or the error that it answers. -/
def attempt (item : Item) : ItemOperation → Except FacetError Unit
  | .write w => (item.write w).map fun _ => ()
  | .read r => (item.read r).map fun _ => ()
  | .numberOfValues => item.numberOfValues.map fun _ => ()
  | .numberOfChoices => item.numberOfChoices.map fun _ => ()
  | .choiceLabel choice => (item.choiceLabel? choice).map fun _ => ()

def operate (item : Item) : ItemOperation → Item
  | .write w => (item.write w).toOption.getD item
  | _ => item

def operateAll (item : Item) (operations : List ItemOperation) : Item :=
  operations.foldl operate item

/-- Of a run of operations the writes alone matter. -/
theorem operateAll_eq_writeAll (item : Item) (operations : List ItemOperation) :
    item.operateAll operations = item.writeAll (operations.filterMap ItemOperation.write?) := by
  induction operations generalizing item with
  | nil => rfl
  | cons operation rest ih =>
      rw [operateAll, List.foldl_cons, ← operateAll, ih]
      cases operation <;> rfl

theorem operate_of_error {item : Item} {operation : ItemOperation} {e : FacetError}
    (h : item.attempt operation = .error e) : item.operate operation = item := by
  cases operation with
  | write w =>
      have hwrite : item.write w = .error e := map_eq_error_iff.mp h
      simp [operate, hwrite, Except.toOption]
  | _ => rfl

theorem writeAll_switch (item : SwitchItem) (writes : List ItemWrite) :
    ∃ last : SwitchItem, (switch item).writeAll writes = .switch last ∧
      last.definition = item.definition := by
  induction writes generalizing item with
  | nil => exact ⟨item, rfl, rfl⟩
  | cons w rest ih =>
      rw [writeAll, List.foldl_cons, ← writeAll]
      cases hwrite : (switch item).write w with
      | error e => exact ih item
      | ok after =>
          obtain ⟨enabled, rfl⟩ : ∃ enabled, after = .switch { item with enabled } := by
            cases w with
            | value slot v =>
                obtain ⟨x, -, hitem, -⟩ := write_value_eq_ok_iff.mp hwrite
                cases hitem
            | enabled enabled => exact ⟨enabled, (write_enabled_eq_ok_iff.mp hwrite).2⟩
            | choice slot choice =>
                obtain ⟨x, -, hitem, -⟩ := write_choice_eq_ok_iff.mp hwrite
                cases hitem
          exact ih { item with enabled }

end Item

/-! ## Choices of definitions -/

namespace ItemDefinition

def storedChoice? (d : ItemDefinition) (choice : Nat) : Option Value :=
  d.discrete[choice]?.bind fun declared => d.type.store? declared.value

theorem storedChoice?_eq_some_iff {d : ItemDefinition} {choice : Nat} {stored : Value} :
    d.storedChoice? choice = some stored ↔ ∃ declared, d.discrete[choice]? = some declared ∧
      d.type.store? declared.value = some stored :=
  Option.bind_eq_some_iff

end ItemDefinition

/-! ## Items that hold values -/

namespace ValueItem

variable {d : ItemDefinition} {item : ValueItem} {stored : Value}

/-- The choices are the stored forms of the declared ones, position by position. -/
def StoresChoices (item : ValueItem) : Prop :=
  List.Forall₂ (fun choice stored => item.definition.type.store? choice.value = some stored)
    item.definition.discrete item.choices

theorem StoresChoices.getElem?_eq_some_iff (h : item.StoresChoices) {choice : Nat} :
    item.choices[choice]? = some stored ↔ ∃ declared,
      item.definition.discrete[choice]? = some declared ∧
        item.definition.type.store? declared.value = some stored := by
  have hlength := h.length_eq
  by_cases hbound : choice < item.choices.length
  · have hdeclared : choice < item.definition.discrete.length := by omega
    have hstored := List.Forall₂.get h hdeclared hbound
    simp only [List.get_eq_getElem] at hstored
    simp [hbound, hdeclared, hstored]
  · have hdeclared : ¬ choice < item.definition.discrete.length := by omega
    simp [hbound, hdeclared]

theorem StoresChoices.getElem?_eq (h : item.StoresChoices) (choice : Nat) :
    item.choices[choice]? = item.definition.storedChoice? choice := by
  refine Option.ext fun stored => ?_
  rw [h.getElem?_eq_some_iff, ItemDefinition.storedChoice?_eq_some_iff]

theorem StoresChoices.exists_label_iff (h : item.StoresChoices) (choice : Nat) :
    (∃ label, item.choiceLabel? choice = some label) ↔
      ∃ stored, item.choices[choice]? = some stored := by
  have hlength := h.length_eq
  rw [← Option.isSome_iff_exists, ← Option.isSome_iff_exists, choiceLabel?, Option.isSome_map]
  simp [hlength]

theorem StoresChoices.holds_of_mem (h : item.StoresChoices) (hmem : stored ∈ item.choices) :
    item.definition.type.Holds stored := by
  obtain ⟨choice, hchoice⟩ := List.mem_iff_getElem?.mp hmem
  obtain ⟨declared, -, hstored⟩ := h.getElem?_eq_some_iff.mp hchoice
  exact ItemType.holds_of_store? hstored

/-- A write stores values of the type of the item alone. -/
theorem StoresChoices.holds_of_stores (h : item.StoresChoices) {w : ItemWrite}
    (hstores : item.Stores w stored) : item.definition.type.Holds stored := by
  cases w with
  | value slot v =>
      obtain ⟨hcoerce, -, -⟩ := admit?_eq_ok_iff.mp hstores
      exact ItemType.holds_of_store? (ItemDefinition.coerce_eq_ok_iff.mp hcoerce)
  | enabled enabled => exact hstores.elim
  | choice slot choice => exact h.holds_of_mem (List.mem_of_getElem? hstores)

theorem StoresChoices.holds_of_initialValue (h : item.StoresChoices)
    (hinitial : initialValue item.definition item.choices = .ok stored) :
    item.definition.type.Holds stored := by
  rcases initialValue_eq_ok_iff.mp hinitial with
    ⟨choice, -, hchoice⟩ | ⟨-, ⟨default, -, hstored⟩ | ⟨-, rfl⟩⟩
  · exact h.holds_of_mem (List.mem_of_getElem? hchoice)
  · exact ItemType.holds_of_store? hstored
  · trivial

structure WellTyped (item : ValueItem) : Prop where
  bears : item.definition.type.isValueBearing = true
  choices : item.StoresChoices
  slots : item.values.length = item.definition.numberOfValues
  values : ∀ v ∈ item.values, item.definition.type.Holds v

theorem wellTyped_of_ofDefinition (made : ofDefinition d = .ok item) : item.WellTyped := by
  have hchoices := forall₂_choices_of_ofDefinition made
  obtain ⟨hbears, choices, initial, -, hinitial, rfl⟩ := ofDefinition_eq_ok_iff.mp made
  refine ⟨hbears, hchoices, List.length_replicate, fun v hv => ?_⟩
  rw [List.eq_of_mem_replicate hv]
  exact StoresChoices.holds_of_initialValue hchoices hinitial

theorem WellTyped.of_sameFrame {last : ValueItem} (h : item.WellTyped)
    (hframe : last.SameFrame item)
    (hvalues : ∀ v ∈ last.values, item.definition.type.Holds v) : last.WellTyped := by
  refine ⟨?_, ?_, ?_, ?_⟩
  · rw [hframe.definition]
    exact h.bears
  · rw [StoresChoices, hframe.definition, hframe.choices]
    exact h.choices
  · rw [hframe.slots, hframe.definition]
    exact h.slots
  · rw [hframe.definition]
    exact hvalues

theorem WellTyped.writeAll (h : item.WellTyped) (writes : List ItemWrite) :
    ∃ last, (Item.value item).writeAll writes = .value last ∧ last.definition = item.definition ∧
      last.WellTyped := by
  obtain ⟨last, hlast, hframe, hvalues⟩ :=
    Item.forall_slots_writeAll h.values writes fun w _ stored => h.choices.holds_of_stores
  exact ⟨last, hlast, hframe.definition, h.of_sameFrame hframe hvalues⟩

end ValueItem

/-! ## What a definition says -/

namespace Item

/-- What a definition says about every item that is made from it, whatever has been asked of the
item since. -/
structure Conforms (item : Item) (d : ItemDefinition) : Prop where
  definition : item.definition = d
  capabilities : item.capabilities = ⟨d.type.isValueBearing, d.optional, d.isDiscrete⟩
  numberOfValues : d.type.isValueBearing = true → item.numberOfValues = .ok d.numberOfValues
  values : d.type.isValueBearing = true → ∀ slot < d.numberOfValues,
    ∃ v, item.getValue slot = .ok v ∧ d.type.Holds v
  numberOfChoices : d.isDiscrete = true → item.numberOfChoices = .ok d.discrete.length
  labels : d.isDiscrete = true → ∀ choice,
    item.choiceLabel? choice = .ok (d.discrete[choice]?.map DiscreteChoice.label)
  selectable : d.isDiscrete = true → ∀ slot < d.numberOfValues, ∀ choice,
    (∃ label, item.choiceLabel? choice = .ok (some label)) ↔
      ∃ after, item.write (.choice slot choice) = .ok after
  selected : d.isDiscrete = true → ∀ slot < d.numberOfValues, ∀ choice declared,
    d.discrete[choice]? = some declared →
      ∃ stored after, d.type.store? declared.value = some stored ∧
        item.write (.choice slot choice) = .ok after ∧ after.getValue slot = .ok stored

theorem conforms_switch {item : SwitchItem} (h : item.definition.type.isValueBearing = false) :
    (switch item).Conforms item.definition where
  definition := rfl
  capabilities := by
    simp [capabilities, valueFacet?, hasOptional, definition, discreteFacet?,
      ItemDefinition.isDiscrete, h]
  numberOfValues hbears := absurd hbears (by simp [h])
  values hbears := absurd hbears (by simp [h])
  numberOfChoices hdiscrete := absurd hdiscrete (by simp [ItemDefinition.isDiscrete, h])
  labels hdiscrete := absurd hdiscrete (by simp [ItemDefinition.isDiscrete, h])
  selectable hdiscrete := absurd hdiscrete (by simp [ItemDefinition.isDiscrete, h])
  selected hdiscrete := absurd hdiscrete (by simp [ItemDefinition.isDiscrete, h])

section ValueItems

variable {item : ValueItem}

theorem write_choice_value {slot choice : Nat} {stored : Value} (hslot : slot < item.values.length)
    (hstored : item.choices[choice]? = some stored) :
    (value item).write (.choice slot choice) = .ok (value (item.withValue slot stored)) ∧
      (value (item.withValue slot stored)).getValue slot = .ok stored := by
  constructor
  · exact write_choice_eq_ok_iff.mpr ⟨item, stored, rfl, hslot, hstored, rfl⟩
  · rw [getValue_value_eq_ok_iff, ValueItem.withValue_values, List.getElem?_set_self hslot]

theorem choices_ne_nil_of_isDiscrete (h : item.StoresChoices)
    (hdiscrete : item.definition.isDiscrete = true) : item.choices ≠ [] := by
  intro hnil
  have hlength := h.length_eq
  simp only [hnil, List.length_nil, List.length_eq_zero_iff] at hlength
  simp [ItemDefinition.isDiscrete, hlength] at hdiscrete

theorem conforms_value (h : item.WellTyped) : (value item).Conforms item.definition where
  definition := rfl
  capabilities := by
    have hempty : item.choices.isEmpty = item.definition.discrete.isEmpty := by
      rw [Bool.eq_iff_iff, List.isEmpty_iff_length_eq_zero, List.isEmpty_iff_length_eq_zero,
        h.choices.length_eq]
    rw [capabilities_value, ItemDefinition.isDiscrete, h.bears, hempty]
    rfl
  numberOfValues _ := congrArg Except.ok h.slots
  values _ slot hslot := by
    rw [← h.slots] at hslot
    exact ⟨_, getValue_value_eq_ok_iff.mpr (List.getElem?_eq_getElem hslot),
      h.values _ (List.getElem_mem hslot)⟩
  numberOfChoices hdiscrete := by
    rw [numberOfChoices_value (choices_ne_nil_of_isDiscrete h.choices hdiscrete),
      h.choices.length_eq]
  labels hdiscrete choice :=
    choiceLabel?_value (choices_ne_nil_of_isDiscrete h.choices hdiscrete) choice
  selectable hdiscrete slot hslot choice := by
    rw [← h.slots] at hslot
    rw [choiceLabel?_value (choices_ne_nil_of_isDiscrete h.choices hdiscrete)]
    simp only [Except.ok.injEq, h.choices.exists_label_iff]
    constructor
    · rintro ⟨stored, hstored⟩
      exact ⟨_, (write_choice_value hslot hstored).1⟩
    · rintro ⟨after, hafter⟩
      obtain ⟨x, stored, hitem, -, hstored, -⟩ := write_choice_eq_ok_iff.mp hafter
      obtain rfl := value.inj hitem
      exact ⟨stored, hstored⟩
  selected hdiscrete slot hslot choice declared hdeclared := by
    rw [← h.slots] at hslot
    obtain ⟨label, hlabel⟩ : ∃ label, item.choiceLabel? choice = some label :=
      ⟨declared.label, by simp [ValueItem.choiceLabel?, hdeclared]⟩
    obtain ⟨stored, hstored⟩ := (h.choices.exists_label_iff choice).mp ⟨label, hlabel⟩
    obtain ⟨declared', hdeclared', hform⟩ := h.choices.getElem?_eq_some_iff.mp hstored
    obtain rfl : declared = declared' := Option.some.inj (hdeclared.symm.trans hdeclared')
    obtain ⟨hwrite, hread⟩ := write_choice_value hslot hstored
    exact ⟨stored, _, hform, hwrite, hread⟩

end ValueItems

variable {d : ItemDefinition} {item : Item}

theorem conforms_writeAll (made : ofDefinition d = .ok item) (writes : List ItemWrite) :
    (item.writeAll writes).Conforms d := by
  unfold ofDefinition at made
  split at made
  · obtain ⟨x, hx, rfl⟩ := map_eq_ok_iff.mp made
    obtain rfl := ValueItem.definition_of_ofDefinition hx
    obtain ⟨last, hlast, hdefinition, htyped⟩ :=
      (ValueItem.wellTyped_of_ofDefinition hx).writeAll writes
    rw [hlast, ← hdefinition]
    exact conforms_value htyped
  · rename_i hvoid
    cases made
    obtain ⟨last, hlast, hdefinition⟩ := writeAll_switch (.ofDefinition d) writes
    have hsame : last.definition = d := hdefinition
    rw [hlast, ← hsame]
    exact conforms_switch (by rw [hsame]; simpa using hvoid)

/-- Whatever is asked of an item, it conforms to the definition that it was made from, and an
operation that is answered by an error leaves it as it was. -/
theorem conforms_operateAll (made : ofDefinition d = .ok item) (operations : List ItemOperation) :
    (item.operateAll operations).Conforms d ∧
      ∀ operation e, (item.operateAll operations).attempt operation = .error e →
        item.operateAll (operations ++ [operation]) = item.operateAll operations := by
  constructor
  · rw [operateAll_eq_writeAll]
    exact conforms_writeAll made _
  · intro operation e herror
    rw [operateAll, List.foldl_append]
    exact operate_of_error herror

/-- A gear ratio in three slots, which is not always enabled and is chosen among whole numbers. -/
def ratio : ItemDefinition where
  name := "ratio"
  type := .double
  numberOfValues := 3
  optional := true
  default := some (.int 2)
  discrete := [⟨"low", .int 1⟩, ⟨"high", .int 2⟩, ⟨"free", .null⟩]

/-- A choice that is selected, a whole number that is stored as a float, a switch that is turned,
and what is refused: a slot too many and a choice too many. -/
def shifts : List ItemOperation :=
  [.write (.choice 1 2), .write (.value 0 (.int 1)), .write (.enabled true),
    .write (.value 3 (.int 1)), .read (.choice 0), .write (.choice 0 3)]

theorem conforms_operateAll_ratio :
    ∃ item, ofDefinition ratio = .ok item ∧ (item.operateAll shifts).Conforms ratio ∧
      (item.operateAll shifts).slots = [.float (.ofInt 1), .null, .float (.ofInt 2)] ∧
      item.operateAll (shifts ++ [.write (.value 2 (.string "high"))]) =
        item.operateAll shifts := by
  have made : ofDefinition ratio = .ok (.value ⟨ratio,
      [.float (.ofInt 1), .float (.ofInt 2), .null],
      List.replicate 3 (.float (.ofInt 2)), false⟩) := by decide +kernel
  obtain ⟨hconforms, hrefused⟩ := conforms_operateAll made shifts
  exact ⟨_, made, hconforms, by decide +kernel, hrefused (.write (.value 2 (.string "high")))
    (.refused (.typeMismatch "ratio" .double (.string "high"))) (by decide +kernel)⟩

end Item

end MethodSynthesis
