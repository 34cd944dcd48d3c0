import MethodSynthesis.Proofs.ItemWrites

/-!
# Reading slots and choices

Behind a write its slot holds what was stored, and every other slot what it held. A slot is read as
a choice by its content: the answer is the first choice that equals it, if any does.
-/

namespace MethodSynthesis

namespace ValueItem

variable {item : ValueItem} {v stored : Value} {slot : Nat}

/-! ## Slots behind a write -/

theorem value_withValue_self (stored : Value) (hslot : slot < item.values.length) :
    (item.withValue slot stored).value slot = .ok stored := by
  simp [value, hslot]

theorem value_withValue_ne {other : Nat} (hne : other ≠ slot) :
    (item.withValue slot stored).value other = item.value other := by
  simp [value, List.getElem?_set_ne hne.symm]

theorem discreteIndex_withValue_self (stored : Value) (hslot : slot < item.values.length) :
    (item.withValue slot stored).discreteIndex slot = .ok (item.choiceOf? stored) := by
  rw [discreteIndex, value_withValue_self stored hslot]
  rfl

/-! ## The first choice -/

/-- The choice at a position equals a stored value, and no earlier one does. -/
def IsFirstChoice (item : ValueItem) (stored : Value) (n : Nat) : Prop :=
  (∃ choice, item.choices[n]? = some choice ∧ choice.equals stored = true) ∧
    ∀ earlier < n, ∀ choice, item.choices[earlier]? = some choice → choice.equals stored = false

theorem choiceOf?_null : item.choiceOf? .null = none := rfl

theorem choiceOf?_eq_none_iff :
    item.choiceOf? v = none ↔ v = .null ∨ ∀ choice ∈ item.choices, choice.equals v = false := by
  simp only [choiceOf?, ite_eq_left_iff, List.findIdx?_eq_none_iff, Bool.not_eq_true,
    ← Value.isNull_iff]
  cases v.isNull <;> simp

theorem choiceOf?_eq_some_iff {n : Nat} :
    item.choiceOf? stored = some n ↔ stored ≠ .null ∧ item.IsFirstChoice stored n := by
  by_cases hnull : stored = .null
  · subst hnull
    simp [choiceOf?_null]
  · have hisNull : stored.isNull = false := by
      cases stored <;> simp_all [Value.isNull]
    have hfind : item.choiceOf? stored =
        item.choices.findIdx? fun choice => choice.equals stored := by
      simp [choiceOf?, hisNull]
    rw [hfind, List.findIdx?_eq_some_iff_getElem]
    constructor
    · rintro ⟨hlt, hequals, hearlier⟩
      refine ⟨hnull, ⟨item.choices[n], List.getElem?_eq_getElem hlt, hequals⟩, ?_⟩
      intro earlier hless choice hchoice
      obtain ⟨hbound, rfl⟩ := List.getElem?_eq_some_iff.mp hchoice
      simpa using hearlier earlier hless
    · rintro ⟨-, ⟨choice, hchoice, hequals⟩, hearlier⟩
      obtain ⟨hlt, rfl⟩ := List.getElem?_eq_some_iff.mp hchoice
      refine ⟨hlt, hequals, fun earlier hless => ?_⟩
      have hapart := hearlier earlier hless _ (List.getElem?_eq_getElem (Nat.lt_trans hless hlt))
      simp [hapart]

theorem exists_choiceOf? (hstored : stored ≠ .null)
    (hany : item.choices.any stored.equals = true) :
    ∃ n, item.choiceOf? stored = some n ∧ item.IsFirstChoice stored n := by
  obtain ⟨choice, hmem, hequals⟩ := List.any_eq_true.mp hany
  cases hchoice : item.choiceOf? stored with
  | none =>
      have hapart := (choiceOf?_eq_none_iff.mp hchoice).resolve_left hstored choice hmem
      rw [Value.equals_comm, hequals] at hapart
      cases hapart
  | some n => exact ⟨n, rfl, (choiceOf?_eq_some_iff.mp hchoice).2⟩

theorem choiceOf?_congr (h : v.equals stored = true) :
    item.choiceOf? v = item.choiceOf? stored := by
  have hisNull : v.isNull = stored.isNull := by
    cases v <;> cases stored <;> simp_all [Value.equals, Value.isNull]
  unfold choiceOf?
  rw [hisNull]
  simp only [Value.equals_congr h]

end ValueItem

end MethodSynthesis
