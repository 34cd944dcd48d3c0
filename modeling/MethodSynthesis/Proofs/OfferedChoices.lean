import MethodSynthesis.Proofs.ChoiceReads
import MethodSynthesis.Proofs.SlotInvariants

/-!
# What a discrete item holds

A discrete item offers null and what equals one of its choices, and a write of a value admits
nothing else. The default is not held to the choices, and a choice that is not-a-number equals no
choice, so a slot may hold what the item does not offer. These are the only ways.
-/

namespace MethodSynthesis

namespace ValueItem

variable {item : ValueItem} {v stored : Value}

def Offers (item : ValueItem) (v : Value) : Prop :=
  v = .null ∨ ∃ choice ∈ item.choices, choice.equals v = true

instance (item : ValueItem) (v : Value) : Decidable (item.Offers v) :=
  inferInstanceAs (Decidable (v = .null ∨ ∃ choice ∈ item.choices, choice.equals v = true))

theorem offers_iff_choiceOf? : item.Offers v ↔ (item.choiceOf? v = none → v = .null) := by
  rw [choiceOf?_eq_none_iff]
  constructor
  · rintro (hnull | ⟨choice, hmem, hequals⟩) hnone
    · exact hnull
    · rcases hnone with hnull | hapart
      · exact hnull
      · rw [hapart choice hmem] at hequals
        cases hequals
  · intro h
    by_cases hany : ∃ choice ∈ item.choices, choice.equals v = true
    · exact Or.inr hany
    · refine Or.inl (h (Or.inr fun choice hmem => ?_))
      exact Bool.eq_false_iff.mpr fun hequals => hany ⟨choice, hmem, hequals⟩

theorem not_offers_nan (item : ValueItem) : ¬ item.Offers (.float .nan) := by
  rintro (hnull | ⟨choice, -, hequals⟩)
  · cases hnull
  · rw [Value.equals_nan] at hequals
    cases hequals

theorem offers_of_mem (hmem : v ∈ item.choices) (hnan : v ≠ .float .nan) : item.Offers v :=
  Or.inr ⟨v, hmem, (Value.equals_self v).mpr hnan⟩

theorem offers_of_admit? (hdiscrete : item.choices ≠ []) (h : item.admit? v = .ok stored) :
    item.Offers stored := by
  obtain ⟨-, -, hchoice⟩ := admit?_eq_ok_iff.mp h
  rcases (checkChoice_eq_ok_iff.mp hchoice).resolve_left hdiscrete with hnull | hany
  · exact Or.inl hnull
  · obtain ⟨choice, hmem, hequals⟩ := List.any_eq_true.mp hany
    rw [Value.equals_comm] at hequals
    exact Or.inr ⟨choice, hmem, hequals⟩

theorem offers_of_stores {w : ItemWrite} (hdiscrete : item.choices ≠ [])
    (hnan : .float .nan ∉ item.choices) (h : item.Stores w stored) : item.Offers stored := by
  cases w with
  | value slot v => exact offers_of_admit? hdiscrete h
  | enabled enabled => exact h.elim
  | choice slot choice =>
      have hmem : stored ∈ item.choices := List.mem_of_getElem? h
      exact offers_of_mem hmem fun heq => hnan (heq ▸ hmem)

/-- The item offers the default in its stored form, unless a preselected choice takes the place of
the default. -/
def OffersDefault (item : ValueItem) : Prop :=
  item.definition.defaultDiscreteIndex = none →
    ∀ v, item.definition.default = some v →
      ∀ stored, item.definition.type.store? v = some stored → item.Offers stored

/-- The item offers what its slots start with exactly when it offers its default, as far as no
choice is not-a-number. -/
theorem offers_initial_iff {initial : Value} (hnan : .float .nan ∉ item.choices)
    (hinitial : initialValue item.definition item.choices = .ok initial) :
    item.Offers initial ↔ item.OffersDefault := by
  rcases initialValue_eq_ok_iff.mp hinitial with
    ⟨choice, hindex, hchoice⟩ | ⟨hindex, ⟨default, hdefault, hstored⟩ | ⟨hdefault, rfl⟩⟩
  · have hmem : initial ∈ item.choices := List.mem_of_getElem? hchoice
    have hoffers : item.Offers initial := offers_of_mem hmem fun heq => hnan (heq ▸ hmem)
    simp [OffersDefault, hindex, hoffers]
  · simp [OffersDefault, hindex, hdefault, hstored]
  · simp [OffersDefault, hdefault, Offers]

variable {d : ItemDefinition}

theorem offers_values_iff (made : ofDefinition d = .ok item) (hslot : d.numberOfValues ≠ 0)
    (hnan : .float .nan ∉ item.choices) :
    (∀ v ∈ item.values, item.Offers v) ↔ item.OffersDefault := by
  obtain ⟨-, choices, initial, -, hinitial, rfl⟩ := ofDefinition_eq_ok_iff.mp made
  rw [← offers_initial_iff hnan hinitial]
  constructor
  · intro h
    exact h initial (List.mem_replicate.mpr ⟨hslot, rfl⟩)
  · intro h v hv
    rw [List.eq_of_mem_replicate hv]
    exact h

end ValueItem

namespace Item

open ValueItem

variable {d : ItemDefinition} {item : ValueItem}

theorem discreteIndex_none_iff (hdiscrete : item.choices ≠ []) :
    (∀ slot, (value item).discreteIndex slot = .ok none → (value item).getValue slot = .ok .null) ↔
      ∀ v ∈ item.values, item.Offers v := by
  simp only [discreteIndex_value_eq_ok_iff hdiscrete, getValue_value_eq_ok_iff,
    offers_iff_choiceOf?, List.mem_iff_getElem?]
  constructor
  · intro h v ⟨slot, hslot⟩ hnone
    have hnull := h slot ⟨v, hslot, hnone.symm⟩
    exact Option.some.inj (hslot.symm.trans hnull)
  · intro h slot ⟨v, hslot, hnone⟩
    rw [hslot, h v ⟨slot, hslot⟩ hnone.symm]

theorem discreteIndex_none_writeAll_iff (hdiscrete : item.choices ≠ []) (writes : List ItemWrite) :
    (∀ slot, ((value item).writeAll writes).discreteIndex slot = .ok none →
      ((value item).writeAll writes).getValue slot = .ok .null) ↔
    ∀ v ∈ ((value item).writeAll writes).slots, item.Offers v := by
  obtain ⟨last, hlast, hframe⟩ := exists_sameFrame_writeAll item writes
  have hlastDiscrete : last.choices ≠ [] := hframe.choices ▸ hdiscrete
  simpa only [hlast, slots, Offers, hframe.choices] using discreteIndex_none_iff hlastDiscrete

/-- Behind every run of writes a discrete item reads no choice of null slots alone, or what is the
same, each slot holds null or what equals a choice, exactly when the item has no slots, or offers
its default and has no choice that is not-a-number. -/
theorem slots_offered_iff (made : ValueItem.ofDefinition d = .ok item)
    (hdiscrete : d.discrete ≠ []) :
    (∀ writes,
      (∀ slot, ((value item).writeAll writes).discreteIndex slot = .ok none →
        ((value item).writeAll writes).getValue slot = .ok .null) ↔
      ∀ v ∈ ((value item).writeAll writes).slots, item.Offers v) ∧
    ((∀ writes, ∀ v ∈ ((value item).writeAll writes).slots, item.Offers v) ↔
      d.numberOfValues = 0 ∨ item.OffersDefault ∧ .float .nan ∉ item.choices) := by
  have hchoices : item.choices ≠ [] := fun hnil =>
    hdiscrete ((choices_eq_nil_iff_of_ofDefinition made).mp hnil)
  have hlength := length_values_of_ofDefinition made
  refine ⟨discreteIndex_none_writeAll_iff hchoices, fun h => ?_, fun h writes => ?_⟩
  · by_cases hslot : d.numberOfValues = 0
    · exact Or.inl hslot
    have hnan : .float .nan ∉ item.choices := by
      intro hmem
      obtain ⟨n, hn⟩ := List.mem_iff_getElem?.mp hmem
      have hfirst : 0 < item.values.length := hlength ▸ Nat.pos_of_ne_zero hslot
      exact not_offers_nan item (h [.choice 0 n] _ (mem_slots_of_choice hfirst hn))
    exact Or.inr ⟨(offers_values_iff made hslot hnan).mp (h []), hnan⟩
  · by_cases hslot : d.numberOfValues = 0
    · have hvalues : item.values = [] := List.eq_nil_of_length_eq_zero (hlength.trans hslot)
      rw [slots_writeAll_eq_nil hvalues]
      exact nofun
    · obtain ⟨hdefault, hnan⟩ := h.resolve_left hslot
      exact forall_mem_slots_writeAll ((offers_values_iff made hslot hnan).mpr hdefault) writes
        fun w _ _ => offers_of_stores hchoices hnan

/-- A gain in three slots: two large integers among the choices are one float, and the default is a
choice with its sign turned. -/
def gain : ItemDefinition where
  name := "gain"
  type := .double
  numberOfValues := 3
  default := some (.float (.finite true .zero))
  discrete := [⟨"off", .int 0⟩, ⟨"most", .int 9007199254740992⟩, ⟨"more", .int 9007199254740993⟩,
    ⟨"unset", .null⟩]

theorem slots_offered_iff_gain :
    gain.discrete ≠ [] ∧ ∃ item, ValueItem.ofDefinition gain = .ok item ∧
      (∀ writes, ∀ v ∈ ((value item).writeAll writes).slots, item.Offers v) ∧
      ∀ writes slot, ((value item).writeAll writes).discreteIndex slot = .ok none →
        ((value item).writeAll writes).getValue slot = .ok .null := by
  have hdiscrete : gain.discrete ≠ [] := nofun
  have made : ValueItem.ofDefinition gain = .ok ⟨gain,
      [.float (.ofInt 0), .float (.ofInt 9007199254740992), .float (.ofInt 9007199254740993),
        .null],
      List.replicate 3 (.float (.finite true .zero)), false⟩ := by decide +kernel
  obtain ⟨hreads, hoffers⟩ := slots_offered_iff made hdiscrete
  have hholds := hoffers.mpr (Or.inr ⟨?_, by decide +kernel⟩)
  · exact ⟨hdiscrete, _, made, hholds, fun writes => (hreads writes).mpr (hholds writes)⟩
  · rintro - v ⟨⟩ stored ⟨⟩
    decide +kernel

def mode : ItemDefinition where
  name := "mode"
  type := .int
  default := some (.int 5)
  discrete := [⟨"off", .int 0⟩, ⟨"on", .int 1⟩]

def weight : ItemDefinition where
  name := "weight"
  type := .double
  discrete := [⟨"none", .float .nan⟩]

/-- A default is not held to the choices, and a selected choice is not found again when it is
not-a-number. -/
theorem slots_not_offered_mode :
    (∃ item, ValueItem.ofDefinition mode = .ok item ∧ mode.discrete ≠ [] ∧
      ((value item).writeAll []).getValue 0 = .ok (.int 5) ∧
      ((value item).writeAll []).discreteIndex 0 = .ok none ∧ ¬ item.Offers (.int 5) ∧
      ((value item).write (.value 0 (.int 5))) = .error (.refused (.notAChoice "mode" (.int 5)))) ∧
    ∃ item, ValueItem.ofDefinition weight = .ok item ∧
      ((value item).writeAll [.choice 0 0]).getValue 0 = .ok (.float .nan) ∧
      ((value item).writeAll [.choice 0 0]).discreteIndex 0 = .ok none := by
  refine ⟨⟨⟨mode, [.int 0, .int 1], [.int 5], false⟩, ?_⟩,
    ⟨⟨weight, [.float .nan], [.null], false⟩, ?_⟩⟩
  all_goals decide +kernel

end Item

end MethodSynthesis
