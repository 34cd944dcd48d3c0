import Mathlib.Order.Bounds.Defs
import MethodSynthesis.Proofs.ChoiceReads
import MethodSynthesis.Proofs.ItemStates
import MethodSynthesis.Proofs.RangeRefusals

/-!
# Selecting a choice

A choice is selected by its position or by its value. By its position it is always stored, and read
back as the first choice that equals it. By its value the same is stored, unless the choice lies
outside the bounds or is not-a-number; and what is stored by value is equal to a choice.
-/

namespace MethodSynthesis

def ItemDefinition.positionsOf (d : ItemDefinition) (v : Value) : Set Nat :=
  {position | ∃ choice, d.storedChoice? position = some choice ∧ choice.equals v = true}

namespace ValueItem

variable {item : ValueItem} {v stored : Value} {slot : Nat}

/-- The first choice that equals a value stands at the least of its positions. -/
theorem StoresChoices.isFirstChoice_iff (h : item.StoresChoices) {n : Nat} :
    item.IsFirstChoice stored n ↔ IsLeast (item.definition.positionsOf stored) n := by
  simp only [IsFirstChoice, h.getElem?_eq]
  constructor
  · intro ⟨hmem, hearlier⟩
    refine ⟨hmem, fun position hposition => Nat.le_of_not_lt fun hless => ?_⟩
    obtain ⟨choice, hchoice, hequals⟩ := hposition
    rw [hearlier position hless choice hchoice] at hequals
    cases hequals
  · intro ⟨hmem, hleast⟩
    refine ⟨hmem, fun earlier hless choice hchoice => ?_⟩
    by_contra hequals
    rw [Bool.not_eq_false] at hequals
    exact Nat.not_le.mpr hless (hleast ⟨choice, hchoice, hequals⟩)

theorem choiceOf?_eq_none_iff_of_mem (hmem : stored ∈ item.choices) :
    item.choiceOf? stored = none ↔ stored = .null ∨ stored = .float .nan := by
  rw [choiceOf?_eq_none_iff]
  constructor
  · intro h
    refine h.imp_right fun hapart => ?_
    by_contra hnumber
    have hself := (Value.equals_self stored).mpr hnumber
    rw [hapart stored hmem] at hself
    cases hself
  · intro h
    refine h.imp_right fun hnan => ?_
    intro choice _
    rw [hnan, Value.equals_nan]

theorem StoresChoices.choiceOf?_eq_self_iff (h : item.StoresChoices) {choice : Nat}
    (hchoice : item.choices[choice]? = some stored) :
    item.choiceOf? stored = some choice ↔ stored ≠ .null ∧ stored ≠ .float .nan ∧
      ∀ earlier < choice, earlier ∉ item.definition.positionsOf stored := by
  rw [choiceOf?_eq_some_iff, h.isFirstChoice_iff]
  rw [h.getElem?_eq] at hchoice
  constructor
  · intro ⟨hnull, ⟨_, hequal, hequals⟩, hleast⟩
    refine ⟨hnull, ?_, fun earlier hless hmem => Nat.not_le.mpr hless (hleast hmem)⟩
    rintro rfl
    rw [Value.equals_nan] at hequals
    cases hequals
  · intro ⟨hnull, hnan, hearlier⟩
    refine ⟨hnull, ⟨stored, hchoice, (Value.equals_self stored).mpr hnan⟩, ?_⟩
    intro position hposition
    exact Nat.le_of_not_lt fun hless => hearlier position hless hposition

end ValueItem

namespace Item

open ValueItem

variable {d : ItemDefinition} {item : ValueItem} {stored : Value} {slot choice : Nat}

theorem getValue_withValue_ne {other : Nat} (hne : other ≠ slot) :
    (value (item.withValue slot stored)).getValue other = (value item).getValue other := by
  have hvalue : (item.withValue slot stored).value other = item.value other :=
    value_withValue_ne hne
  simp only [getValue, withValueFacet, valueFacet?, hvalue]

theorem discreteIndex_withValue_self (hslot : slot < item.values.length)
    (hchoices : item.choices ≠ []) :
    (value (item.withValue slot stored)).discreteIndex slot = .ok (item.choiceOf? stored) := by
  have hsame : (item.withValue slot stored).choices ≠ [] := hchoices
  exact (discreteIndex_value_eq_ok_iff hsame).mpr ⟨stored, List.getElem?_set_self hslot, rfl⟩

/-- What is read of an item behind the selection of a choice at a slot. -/
structure SelectedAs (now after : Item) (d : ItemDefinition) (slot choice : Nat)
    (stored : Value) : Prop where
  storedChoice : d.storedChoice? choice = some stored
  value : after.getValue slot = .ok stored
  others : ∀ other, other ≠ slot → after.getValue other = now.getValue other
  missed : stored = .null ∨ stored = .float .nan → after.discreteIndex slot = .ok none
  found : stored ≠ .null → stored ≠ .float .nan →
    ∃ n, after.discreteIndex slot = .ok (some n) ∧ IsLeast (d.positionsOf stored) n
  returned_iff : after.discreteIndex slot = .ok (some choice) ↔
    stored ≠ .null ∧ stored ≠ .float .nan ∧ ∀ earlier < choice, earlier ∉ d.positionsOf stored

theorem selectedAs_withValue (h : item.StoresChoices) (hslot : slot < item.values.length)
    (hchoice : item.choices[choice]? = some stored) :
    (value item).SelectedAs (value (item.withValue slot stored)) item.definition slot choice
      stored := by
  have hmem : stored ∈ item.choices := List.mem_of_getElem? hchoice
  have hread : (Item.value (item.withValue slot stored)).discreteIndex slot =
      .ok (item.choiceOf? stored) :=
    discreteIndex_withValue_self hslot (List.ne_nil_of_mem hmem)
  refine ⟨(h.getElem?_eq choice).symm.trans hchoice, (write_choice_value hslot hchoice).2,
    fun other => getValue_withValue_ne, fun hmissed => ?_, fun hnull hnan => ?_, ?_⟩
  · rw [hread, (choiceOf?_eq_none_iff_of_mem hmem).mpr hmissed]
  · rw [hread]
    cases hfirst : item.choiceOf? stored with
    | none =>
        have hmissed := (choiceOf?_eq_none_iff_of_mem hmem).mp hfirst
        exact absurd hmissed (not_or.mpr ⟨hnull, hnan⟩)
    | some n => exact ⟨n, rfl, h.isFirstChoice_iff.mp (choiceOf?_eq_some_iff.mp hfirst).2⟩
  · rw [hread, Except.ok.injEq]
    exact h.choiceOf?_eq_self_iff hchoice

/-- In every state of an item a choice can be selected exactly when its slot and its position are
there. Then its stored form stands in that slot, the other slots are as before, and it is read back
as the first choice that equals it, unless it is null or not-a-number. -/
theorem write_choice_selects (made : ValueItem.ofDefinition d = .ok item)
    {writes : List ItemWrite} {now : Item} (reached : (value item).writeAll writes = now)
    (slot choice : Nat) :
    ((∃ after, now.write (.choice slot choice) = .ok after) ↔
      slot < d.numberOfValues ∧ choice < d.discrete.length) ∧
    ∀ after, now.write (.choice slot choice) = .ok after →
      ∃ stored, now.SelectedAs after d slot choice stored := by
  obtain ⟨last, hlast, hdefinition, htyped⟩ := (wellTyped_of_ofDefinition made).writeAll writes
  obtain rfl : now = value last := reached.symm.trans hlast
  obtain rfl : last.definition = d := hdefinition.trans (definition_of_ofDefinition made)
  constructor
  · rw [← htyped.slots, htyped.choices.length_eq]
    constructor
    · intro ⟨after, hafter⟩
      obtain ⟨x, stored, hitem, hslot, hstored, -⟩ := write_choice_eq_ok_iff.mp hafter
      obtain rfl := value.inj hitem
      exact ⟨hslot, (List.getElem?_eq_some_iff.mp hstored).1⟩
    · intro ⟨hslot, hchoice⟩
      exact ⟨_, (write_choice_value hslot (List.getElem?_eq_getElem hchoice)).1⟩
  · intro after hafter
    obtain ⟨x, stored, hitem, hslot, hstored, rfl⟩ := write_choice_eq_ok_iff.mp hafter
    obtain rfl := value.inj hitem
    exact ⟨stored, selectedAs_withValue htyped.choices hslot hstored⟩

/-- A volume in two slots, up to 2^53: zero with either sign, two large integers that are one float,
null, not-a-number, and what lies beyond the bound. -/
def volume : ItemDefinition where
  name := "volume"
  type := .double
  numberOfValues := 2
  max := some (.int 9007199254740992)
  discrete := [⟨"off", .int 0⟩, ⟨"mute", .float (.finite true .zero)⟩,
    ⟨"loud", .int 9007199254740992⟩, ⟨"louder", .int 9007199254740993⟩, ⟨"unset", .null⟩,
    ⟨"lost", .float .nan⟩, ⟨"endless", .float (.infinity false)⟩]

def silence : ValueItem where
  definition := volume
  choices := [.float (.ofInt 0), .float (.finite true .zero), .float (.ofInt 9007199254740992),
    .float (.ofInt 9007199254740993), .null, .float .nan, .float (.infinity false)]
  values := [.null, .null]
  enabled := false

theorem ofDefinition_volume : ValueItem.ofDefinition volume = .ok silence := by decide +kernel

theorem write_choice_selects_volume :
    ∃ item after, ValueItem.ofDefinition volume = .ok item ∧
      ((value item).writeAll [.choice 0 1]).write (.choice 1 3) = .ok after ∧
      after.getValue 1 = .ok (.float (.ofInt 9007199254740993)) ∧
      after.discreteIndex 1 ≠ .ok (some 3) := by
  obtain ⟨hvalid, hselected⟩ := write_choice_selects ofDefinition_volume
    (rfl : (value silence).writeAll [.choice 0 1] = _) 1 3
  obtain ⟨after, hafter⟩ := hvalid.mpr (by decide)
  obtain ⟨stored, hstored⟩ := hselected after hafter
  have hform : volume.storedChoice? 3 = some (.float (.ofInt 9007199254740993)) := by
    decide +kernel
  obtain rfl := Option.some.inj (hstored.storedChoice.symm.trans hform)
  refine ⟨silence, after, ofDefinition_volume, hafter, hstored.value, fun hreturned => ?_⟩
  -- The choice in front has the same float.
  have hearlier : 2 ∈ volume.positionsOf (.float (.ofInt 9007199254740993)) :=
    ⟨.float (.ofInt 9007199254740992), by decide +kernel, by decide +kernel⟩
  exact (hstored.returned_iff.mp hreturned).2.2 2 (by decide) hearlier

end Item

/-! ## Choices by their values -/

/-- Why a choice is not stored by its value. -/
inductive ItemDefinition.RefusesChoice (d : ItemDefinition) (stored : Value) : ItemError → Prop
  | outOfRange (violation : RangeViolation) (excluded : d.Excludes stored) :
      RefusesChoice d stored (.outOfRange d.name stored violation)
  | notAChoice (nan : stored = .float .nan) : RefusesChoice d stored (.notAChoice d.name stored)

theorem ItemType.eq_null_of_store? {type : ItemType} (h : type.store? v = some .null) :
    v = .null := by
  cases v <;> cases type <;> simp_all [ItemType.store?]

namespace ValueItem

variable {item : ValueItem} {v stored : Value}

/-- The value of a choice is admitted in the form of the choice, or refused for one of two
reasons. -/
theorem admit?_of_mem (hstore : item.definition.type.store? v = some stored)
    (hmem : stored ∈ item.choices) :
    item.admit? v = .ok stored ∨
      ∃ e, item.admit? v = .error e ∧ item.definition.RefusesChoice stored e := by
  cases hadmit : item.admit? v with
  | ok admitted =>
      obtain ⟨hcoerce, -, -⟩ := admit?_eq_ok_iff.mp hadmit
      have hadmitted := ItemDefinition.coerce_eq_ok_iff.mp hcoerce
      exact Or.inl (congrArg Except.ok (Option.some.inj (hadmitted.symm.trans hstore)))
  | error e =>
      refine Or.inr ⟨e, rfl, ?_⟩
      rcases (admit?_eq_error_iff hstore).mp hadmit with hrange | ⟨-, hchoice⟩
      · obtain ⟨x, violation, hx, hviolation, rfl⟩ :=
          ItemDefinition.checkRange_eq_error_iff.mp hrange
        exact .outOfRange violation (ItemDefinition.excludes_of_violation? hx hviolation)
      · obtain ⟨-, -, hany, rfl⟩ := checkChoice_eq_error_iff.mp hchoice
        refine .notAChoice (by_contra fun hnumber => ?_)
        have hself := (Value.equals_self stored).mpr hnumber
        exact List.any_eq_false.mp hany stored hmem hself

end ValueItem

namespace Item

open ValueItem

variable {d : ItemDefinition} {item : ValueItem} {slot : Nat}

/-- In every state of a discrete item and at every slot, the value of a choice is stored as the
choice itself is, or the write is refused because the choice lies outside the bounds or is
not-a-number. Whatever else but null is stored by value equals a choice and is read as that
choice. -/
theorem write_choice_by_value (made : ValueItem.ofDefinition d = .ok item)
    (hdiscrete : d.isDiscrete = true) {writes : List ItemWrite} {now : Item}
    (reached : (value item).writeAll writes = now) (hslot : slot < d.numberOfValues) :
    (∀ choice declared, d.discrete[choice]? = some declared →
      ∃ stored selected, d.type.store? declared.value = some stored ∧
        now.write (.choice slot choice) = .ok selected ∧
        (now.write (.value slot declared.value) = .ok selected ∨
          ∃ e, now.write (.value slot declared.value) = .error (.refused e) ∧
            d.RefusesChoice stored e ∧ now.writeAll [.value slot declared.value] = now)) ∧
    ∀ v after, v ≠ .null → now.write (.value slot v) = .ok after →
      ∃ choice selected a b n, now.write (.choice slot choice) = .ok selected ∧
        after.getValue slot = .ok a ∧ selected.getValue slot = .ok b ∧ a.equals b = true ∧
        after.discreteIndex slot = .ok (some n) ∧ selected.discreteIndex slot = .ok (some n) := by
  obtain ⟨last, hlast, hdefinition, htyped⟩ := (wellTyped_of_ofDefinition made).writeAll writes
  obtain rfl : now = value last := reached.symm.trans hlast
  obtain rfl : last.definition = d := hdefinition.trans (definition_of_ofDefinition made)
  rw [← htyped.slots] at hslot
  constructor
  · intro choice declared hdeclared
    have hbound : choice < last.choices.length := by
      rw [← htyped.choices.length_eq]
      exact (List.getElem?_eq_some_iff.mp hdeclared).1
    have hstored := List.getElem?_eq_getElem hbound
    obtain ⟨same, hsame, hform⟩ := htyped.choices.getElem?_eq_some_iff.mp hstored
    obtain rfl : declared = same := Option.some.inj (hdeclared.symm.trans hsame)
    refine ⟨_, _, hform, (write_choice_value hslot hstored).1, ?_⟩
    rcases admit?_of_mem hform (List.getElem_mem hbound) with hadmit | ⟨e, hadmit, hrefuses⟩
    · exact Or.inl (write_value_eq_ok_iff.mpr ⟨last, _, rfl, hslot, hadmit, rfl⟩)
    · have hrefused := (write_value_eq_error_iff hslot).mpr ⟨e, hadmit, rfl⟩
      exact Or.inr ⟨e, hrefused, hrefuses, writeAll_of_error hrefused⟩
  · intro v after hv hafter
    obtain ⟨x, stored, hitem, -, hadmit, rfl⟩ := write_value_eq_ok_iff.mp hafter
    obtain rfl := value.inj hitem
    obtain ⟨hcoerce, -, hchoice⟩ := admit?_eq_ok_iff.mp hadmit
    have hchoices : last.choices ≠ [] := choices_ne_nil_of_isDiscrete htyped.choices hdiscrete
    have hnull : stored ≠ .null := by
      rintro rfl
      exact hv (ItemType.eq_null_of_store? (ItemDefinition.coerce_eq_ok_iff.mp hcoerce))
    have hany := ((checkChoice_eq_ok_iff.mp hchoice).resolve_left hchoices).resolve_left hnull
    -- The choice to select is the one that the stored value is read as.
    obtain ⟨n, hn, ⟨choice, hmem, hequals⟩, -⟩ := exists_choiceOf? hnull hany
    obtain ⟨hselected, hvalue⟩ := write_choice_value hslot hmem
    refine ⟨n, _, stored, choice, n, hselected, ?_, hvalue, ?_, ?_, ?_⟩
    · exact getValue_value_eq_ok_iff.mpr (List.getElem?_set_self hslot)
    · rw [Value.equals_comm]
      exact hequals
    · rw [discreteIndex_withValue_self hslot hchoices, hn]
    · rw [discreteIndex_withValue_self hslot hchoices, choiceOf?_congr hequals, hn]

theorem write_choice_by_value_volume :
    volume.isDiscrete = true ∧ ∃ item, ValueItem.ofDefinition volume = .ok item ∧
      (value item).write (.value 0 (.int 9007199254740993)) = (value item).write (.choice 0 3) ∧
      (∃ e, (value item).write (.value 0 (.float (.infinity false))) = .error (.refused e) ∧
        volume.RefusesChoice (.float (.infinity false)) e) ∧
      ∃ after choice selected n,
        (value item).write (.value 0 (.float (.finite true .zero))) = .ok after ∧
        (value item).write (.choice 0 choice) = .ok selected ∧
        after.discreteIndex 0 = .ok (some n) ∧ selected.discreteIndex 0 = .ok (some n) := by
  have hdiscrete : volume.isDiscrete = true := by decide
  have reached : (value silence).writeAll [] = value silence := rfl
  have hslot : 0 < volume.numberOfValues := by decide
  obtain ⟨hchoice, hvalue⟩ :=
    write_choice_by_value ofDefinition_volume hdiscrete reached hslot
  refine ⟨hdiscrete, silence, ofDefinition_volume, ?_, ?_, ?_⟩
  · have hstored : ((value silence).write (.value 0 (.int 9007199254740993))).isOk = true := by
      decide +kernel
    obtain ⟨_, _, -, hselected, hsame | ⟨e, hrefused, -⟩⟩ :=
      hchoice 3 ⟨"louder", .int 9007199254740993⟩ rfl
    · exact hsame.trans hselected.symm
    · rw [hrefused] at hstored
      cases hstored
  · have hunstored :
        ((value silence).write (.value 0 (.float (.infinity false)))).isOk = false := by
      decide +kernel
    obtain ⟨_, _, hform, -, hsame | ⟨e, hrefused, hrefuses, -⟩⟩ :=
      hchoice 6 ⟨"endless", .float (.infinity false)⟩ rfl
    · rw [hsame] at hunstored
      cases hunstored
    · cases hform
      exact ⟨e, hrefused, hrefuses⟩
  · have hstored :
        ((value silence).write (.value 0 (.float (.finite true .zero)))).isOk = true := by
      decide +kernel
    obtain ⟨after, hafter⟩ := Outcomes.exists_of_isOk hstored
    obtain ⟨choice, selected, _, _, n, hselected, -, -, -, hread, hsame⟩ :=
      hvalue (.float (.finite true .zero)) after (by decide) hafter
    exact ⟨after, choice, selected, n, hafter, hselected, hread, hsame⟩

end Item

end MethodSynthesis
