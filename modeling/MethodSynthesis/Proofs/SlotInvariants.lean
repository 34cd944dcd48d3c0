import MethodSynthesis.Proofs.ItemWrites

/-!
# What the slots of an item hold

A slot gets its content when the item is made, from a value that is admitted or from a choice. What
holds of all three holds of every slot behind any run of writes, and no run changes how many slots
there are.
-/

namespace MethodSynthesis

open Outcomes

namespace ValueItem

theorem initialValue_eq_ok_iff {d : ItemDefinition} {choices : List Value} {initial : Value} :
    initialValue d choices = .ok initial ↔
      (∃ choice, d.defaultDiscreteIndex = some choice ∧ choices[choice]? = some initial) ∨
        d.defaultDiscreteIndex = none ∧
          ((∃ v, d.default = some v ∧ d.type.store? v = some initial) ∨
            d.default = none ∧ initial = .null) := by
  unfold initialValue
  split
  · rename_i hindex
    simp [hindex, choiceAt_eq_ok_iff]
  · rename_i hindex hdefault
    simp [hindex, hdefault, ItemDefinition.coerce_eq_ok_iff]
  · rename_i hindex hdefault
    simp [hindex, hdefault, eq_comm]

theorem ofDefinition_eq_ok_iff {d : ItemDefinition} {item : ValueItem} :
    ofDefinition d = .ok item ↔
      d.type.isValueBearing = true ∧ ∃ choices initial,
        (d.discrete.mapM fun choice => d.coerce choice.value) = .ok choices ∧
        initialValue d choices = .ok initial ∧
        item = ⟨d, choices, List.replicate d.numberOfValues initial, d.enabledByDefault⟩ := by
  unfold ofDefinition
  cases hbears : d.type.isValueBearing with
  | false => simp [bind, Except.bind, throw, throwThe, MonadExceptOf.throw]
  | true =>
      simp only [Bool.not_true, Bool.false_eq_true, if_false, bind_eq_ok_iff, pure_eq_ok_iff,
        true_and, exists_and_left]

theorem definition_of_ofDefinition {d : ItemDefinition} {item : ValueItem}
    (h : ofDefinition d = .ok item) : item.definition = d := by
  obtain ⟨-, _, _, -, -, rfl⟩ := ofDefinition_eq_ok_iff.mp h
  rfl

theorem length_values_of_ofDefinition {d : ItemDefinition} {item : ValueItem}
    (h : ofDefinition d = .ok item) : item.values.length = d.numberOfValues := by
  obtain ⟨-, _, _, -, -, rfl⟩ := ofDefinition_eq_ok_iff.mp h
  exact List.length_replicate

theorem forall₂_choices_of_ofDefinition {d : ItemDefinition} {item : ValueItem}
    (h : ofDefinition d = .ok item) :
    List.Forall₂ (fun choice stored => d.type.store? choice.value = some stored) d.discrete
      item.choices := by
  obtain ⟨-, choices, _, hchoices, -, rfl⟩ := ofDefinition_eq_ok_iff.mp h
  simpa only [mapM_eq_ok_iff, ItemDefinition.coerce_eq_ok_iff] using hchoices

theorem length_choices_of_ofDefinition {d : ItemDefinition} {item : ValueItem}
    (h : ofDefinition d = .ok item) : item.choices.length = d.discrete.length :=
  (forall₂_choices_of_ofDefinition h).length_eq.symm

theorem choices_eq_nil_iff_of_ofDefinition {d : ItemDefinition} {item : ValueItem}
    (h : ofDefinition d = .ok item) : item.choices = [] ↔ d.discrete = [] := by
  rw [← List.length_eq_zero_iff, ← List.length_eq_zero_iff, length_choices_of_ofDefinition h]

/-- Definition, choices and the number of slots are those of another item. -/
structure SameFrame (item other : ValueItem) : Prop where
  definition : item.definition = other.definition
  choices : item.choices = other.choices
  slots : item.values.length = other.values.length

/-- What a write may put into a slot: its value as the item admits it, or the choice it selects. -/
def Stores (item : ValueItem) : ItemWrite → Value → Prop
  | .value _ v, stored => item.admit? v = .ok stored
  | .enabled _, _ => False
  | .choice _ choice, stored => item.choices[choice]? = some stored

variable {item next later : ValueItem}

theorem SameFrame.refl (item : ValueItem) : item.SameFrame item := ⟨rfl, rfl, rfl⟩

theorem SameFrame.trans (h : later.SameFrame next) (h' : next.SameFrame item) :
    later.SameFrame item :=
  ⟨h.definition.trans h'.definition, h.choices.trans h'.choices, h.slots.trans h'.slots⟩

theorem withValue_sameFrame (item : ValueItem) (slot : Nat) (stored : Value) :
    (item.withValue slot stored).SameFrame item := ⟨rfl, rfl, List.length_set⟩

theorem SameFrame.stores (h : next.SameFrame item) {w : ItemWrite} {stored : Value}
    (hstores : next.Stores w stored) : item.Stores w stored := by
  cases w with
  | value slot v => exact (admit?_congr h.definition h.choices v).symm.trans hstores
  | enabled enabled => exact hstores
  | choice slot choice => simpa only [Stores, h.choices] using hstores

end ValueItem

namespace Item

def slots : Item → List Value
  | .value item => item.values
  | .switch _ => []

variable {item : ValueItem} {after : Item}

/-- A write leaves the slots alone, or puts into one of them what it stores. -/
theorem write_value_cases {w : ItemWrite} (h : (value item).write w = .ok after) :
    ∃ next, after = .value next ∧ next.SameFrame item ∧
      (next.values = item.values ∨
        ∃ slot stored, item.Stores w stored ∧ next.values = item.values.set slot stored) := by
  cases w with
  | value slot v =>
      obtain ⟨x, stored, hitem, -, hadmit, rfl⟩ := write_value_eq_ok_iff.mp h
      obtain rfl := value.inj hitem
      exact ⟨_, rfl, ValueItem.withValue_sameFrame .., Or.inr ⟨slot, stored, hadmit, rfl⟩⟩
  | enabled enabled =>
      obtain ⟨-, rfl⟩ := write_enabled_eq_ok_iff.mp h
      exact ⟨{ item with enabled }, rfl, ⟨rfl, rfl, rfl⟩, Or.inl rfl⟩
  | choice slot choice =>
      obtain ⟨x, stored, hitem, -, hstored, rfl⟩ := write_choice_eq_ok_iff.mp h
      obtain rfl := value.inj hitem
      exact ⟨_, rfl, ValueItem.withValue_sameFrame .., Or.inr ⟨slot, stored, hstored, rfl⟩⟩

section Runs

variable {P : Value → Prop}

theorem forall_slots_write {w : ItemWrite} (hslots : ∀ v ∈ item.values, P v)
    (hstored : ∀ stored, item.Stores w stored → P stored)
    (h : (value item).write w = .ok after) :
    ∃ next, after = .value next ∧ next.SameFrame item ∧ ∀ v ∈ next.values, P v := by
  obtain ⟨next, rfl, hframe, hvalues⟩ := write_value_cases h
  refine ⟨next, rfl, hframe, fun v hv => ?_⟩
  obtain hsame | ⟨slot, stored, hstores, hset⟩ := hvalues
  · exact hslots v (hsame ▸ hv)
  · rcases List.mem_or_eq_of_mem_set (hset ▸ hv) with hold | rfl
    · exact hslots v hold
    · exact hstored v hstores

/-- A run keeps what holds of every slot and of all that its writes store. -/
theorem forall_slots_writeAll (hslots : ∀ v ∈ item.values, P v) (writes : List ItemWrite)
    (hstored : ∀ w ∈ writes, ∀ stored, item.Stores w stored → P stored) :
    ∃ last, (value item).writeAll writes = .value last ∧ last.SameFrame item ∧
      ∀ v ∈ last.values, P v := by
  induction writes generalizing item with
  | nil => exact ⟨item, rfl, .refl item, hslots⟩
  | cons w rest ih =>
      rw [writeAll, List.foldl_cons, ← writeAll]
      cases h : (value item).write w with
      | error e => exact ih hslots fun w hw => hstored w (List.mem_cons_of_mem _ hw)
      | ok after =>
          obtain ⟨next, rfl, hframe, hnext⟩ :=
            forall_slots_write hslots (hstored w List.mem_cons_self) h
          -- The frame is kept, so the later writes store what they would have stored at first.
          obtain ⟨last, hlast, hlater, hvalues⟩ := ih hnext fun w hw stored hstores =>
            hstored w (List.mem_cons_of_mem _ hw) stored (hframe.stores hstores)
          exact ⟨last, hlast, hlater.trans hframe, hvalues⟩

theorem forall_mem_slots_writeAll (hslots : ∀ v ∈ item.values, P v) (writes : List ItemWrite)
    (hstored : ∀ w ∈ writes, ∀ stored, item.Stores w stored → P stored) :
    ∀ v ∈ ((value item).writeAll writes).slots, P v := by
  obtain ⟨last, hlast, -, hvalues⟩ := forall_slots_writeAll hslots writes hstored
  rw [hlast]
  exact hvalues

theorem exists_sameFrame_writeAll (item : ValueItem) (writes : List ItemWrite) :
    ∃ last, (value item).writeAll writes = .value last ∧ last.SameFrame item := by
  have hslots : ∀ v ∈ item.values, True := fun _ _ => trivial
  obtain ⟨last, hlast, hframe, -⟩ := forall_slots_writeAll hslots writes fun _ _ _ _ => trivial
  exact ⟨last, hlast, hframe⟩

theorem length_slots_writeAll (item : ValueItem) (writes : List ItemWrite) :
    ((value item).writeAll writes).slots.length = item.values.length := by
  obtain ⟨last, hlast, hframe⟩ := exists_sameFrame_writeAll item writes
  rw [hlast]
  exact hframe.slots

theorem slots_writeAll_eq_nil (h : item.values = []) (writes : List ItemWrite) :
    ((value item).writeAll writes).slots = [] := by
  rw [← List.length_eq_zero_iff, length_slots_writeAll, h]
  rfl

end Runs

/-! ## What is stored is found again -/

theorem mem_slots_of_write {w : ItemWrite} {stored : Value} (hslot : 0 < item.values.length)
    (h : (value item).write w = .ok (.value (item.withValue 0 stored))) :
    stored ∈ ((value item).writeAll [w]).slots := by
  simp only [writeAll, List.foldl_cons, List.foldl_nil, h, Except.toOption, Option.getD_some, slots,
    ValueItem.withValue_values]
  exact List.mem_set hslot stored

theorem mem_slots_of_admit? {v stored : Value} (hslot : 0 < item.values.length)
    (h : item.admit? v = .ok stored) : stored ∈ ((value item).writeAll [.value 0 v]).slots :=
  mem_slots_of_write hslot (write_value_eq_ok_iff.mpr ⟨item, stored, rfl, hslot, h, rfl⟩)

theorem mem_slots_of_choice {choice : Nat} {stored : Value} (hslot : 0 < item.values.length)
    (h : item.choices[choice]? = some stored) :
    stored ∈ ((value item).writeAll [.choice 0 choice]).slots :=
  mem_slots_of_write hslot (write_choice_eq_ok_iff.mpr ⟨item, stored, rfl, hslot, h, rfl⟩)

end Item

end MethodSynthesis
