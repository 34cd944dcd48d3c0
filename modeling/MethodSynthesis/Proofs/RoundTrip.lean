import MethodSynthesis.Proofs.CallAnswers
import MethodSynthesis.Proofs.ChoiceReads
import MethodSynthesis.Proofs.MethodCandidates

/-!
# Values come back as they are stored

What a setter accepts the getter of the same item returns in its stored form, and no other slot and
no other item answers differently from before.
-/

namespace MethodSynthesis

open Outcomes

/-! ## Stored forms -/

/-- The form in which items of a type hold a value: a float item holds an integer as the nearest
float, and any other value is held as it is. -/
def ItemType.storedForm : ItemType → Value → Value
  | .double, .int i => .float (.ofInt i.toInt)
  | _, v => v

theorem ItemType.eq_storedForm_of_store? {type : ItemType} {v stored : Value}
    (h : type.store? v = some stored) : stored = type.storedForm v := by
  cases type <;> cases v <;> cases h <;> rfl

namespace ValueItem

variable {item : ValueItem} {v stored : Value}

theorem admit?_eq_ok (h : item.admit? v = .ok stored) :
    stored = item.definition.type.storedForm v ∧
      (item.choices = [] ∨ stored = .null ∨ item.choices.any stored.equals = true) := by
  obtain ⟨hcoerce, -, hchoice⟩ := admit?_eq_ok_iff.mp h
  have hstore := ItemDefinition.coerce_eq_ok_iff.mp hcoerce
  exact ⟨ItemType.eq_storedForm_of_store? hstore, checkChoice_eq_ok_iff.mp hchoice⟩

end ValueItem

/-! ## Requests by position -/

/-- Methods that read and write nothing. -/
def MethodKind.IsGetter : MethodKind → Prop
  | .value | .isEnabled | .discreteIndex => True
  | .setValue | .enable | .setDiscreteIndex => False

namespace Request

variable {method : String} {position v : Value} {slot : Nat} {request : Request}

theorem ofArguments_value (h : position.index? = some slot) :
    ofArguments .value method [position] = .ok (.read (.value slot)) := by
  simp only [ofArguments, readIndex_eq_ok_iff.mpr h]
  rfl

theorem ofArguments_discreteIndex (h : position.index? = some slot) :
    ofArguments .discreteIndex method [position] = .ok (.read (.choice slot)) := by
  simp only [ofArguments, readIndex_eq_ok_iff.mpr h]
  rfl

theorem ofArguments_setValue_eq_ok_iff :
    ofArguments .setValue method [position, v] = .ok request ↔
      ∃ slot, position.index? = some slot ∧ request = .write (.value slot v) := by
  simp only [ofArguments, bind_eq_ok_iff, readIndex_eq_ok_iff, pure_eq_ok_iff]

theorem ofArguments_value_of_none (h : position.index? = none) :
    ofArguments .value method [position] = .error (.argumentType method 0 .index position) := by
  simp only [ofArguments, readIndex, h]
  rfl

end Request

theorem Value.index?_int_injective {i j : Int64} {slot : Nat} (hi : (int i).index? = some slot)
    (hj : (int j).index? = some slot) : i = j := by
  simp only [index?, Option.ite_none_right_eq_some, Option.some.injEq] at hi hj
  exact Int64.toInt_inj.mp (by omega)

/-! ## Invocations of setters and getters -/

namespace Binding

variable {name method : String} {p q : Parameters} {item : ValueItem} {position v answer : Value}

theorem setValue_of_invoke
    (h : (⟨name, .setValue⟩ : Binding).invoke method p [position, v] = (.ok answer, q)) :
    ∃ item slot stored, p.find? name = some (.value item) ∧ position.index? = some slot ∧
      slot < item.values.length ∧ item.admit? v = .ok stored ∧
      q.find? name = some (.value (item.withValue slot stored)) ∧
      ∀ other, other ≠ name → q.find? other = p.find? other := by
  obtain ⟨found, request, hfind, hrequest, hanswer, hafter⟩ := invoke_eq_ok_iff.mp h
  obtain ⟨slot, hslot, rfl⟩ := Request.ofArguments_setValue_eq_ok_iff.mp hrequest
  obtain ⟨after, hwrite, -⟩ := map_eq_ok_iff.mp hanswer
  have hname := (Item.write_name hwrite).trans (Parameters.name_of_find? hfind)
  have hq : q = p.update name after := hafter.trans (Parameters.writeItem_of_ok hfind hwrite)
  obtain ⟨item, stored, rfl, hbound, hadmit, rfl⟩ := Item.write_value_eq_ok_iff.mp hwrite
  rw [hq]
  exact ⟨item, slot, stored, hfind, hslot, hbound, hadmit, Parameters.find?_update_self hfind hname,
    fun other hne => Parameters.find?_update_of_ne hfind hname hne⟩

theorem invoke_value {slot : Nat} (hfind : p.find? name = some (.value item))
    (hslot : position.index? = some slot) :
    (⟨name, .value⟩ : Binding).invoke method p [position] =
      ((Item.liftError (item.value slot)).mapError (facetError ⟨name, .value⟩), p) := by
  have hrequest : Request.ofArguments (⟨name, .value⟩ : Binding).kind method [position] =
      .ok (.read (.value slot)) := Request.ofArguments_value hslot
  exact invoke_of_request hfind hrequest

theorem invoke_value_of_ok {slot : Nat} {stored : Value}
    (hfind : p.find? name = some (.value item)) (hslot : position.index? = some slot)
    (hvalue : item.value slot = .ok stored) :
    (⟨name, .value⟩ : Binding).invoke method p [position] = (.ok stored, p) := by
  rw [invoke_value hfind hslot, hvalue]
  rfl

theorem invoke_value_congr {other : ValueItem} (hfind : p.find? name = some (.value item))
    (hother : q.find? name = some (.value other))
    (hsame : ∀ slot, position.index? = some slot → other.value slot = item.value slot) :
    ((⟨name, .value⟩ : Binding).invoke method q [position]).1 =
      ((⟨name, .value⟩ : Binding).invoke method p [position]).1 := by
  cases hslot : position.index? with
  | some slot => rw [invoke_value hother hslot, invoke_value hfind hslot, hsame slot hslot]
  | none =>
      have hunfit : Request.ofArguments (⟨name, .value⟩ : Binding).kind method [position] =
          .error (.argumentType method 0 .index position) :=
        Request.ofArguments_value_of_none hslot
      rw [invoke_of_unfit hother hunfit, invoke_of_unfit hfind hunfit]

theorem invoke_discreteIndex_of_ok {slot : Nat} {choice : Option Nat}
    (hfind : p.find? name = some (.value item)) (hexposes : item.choices ≠ [])
    (hslot : position.index? = some slot) (hchoice : item.discreteIndex slot = .ok choice) :
    (⟨name, .discreteIndex⟩ : Binding).invoke method p [position] =
      (.ok ((choice.map .ofIndex).getD .null), p) := by
  have hrequest : Request.ofArguments (⟨name, .discreteIndex⟩ : Binding).kind method [position] =
      .ok (.read (.choice slot)) := Request.ofArguments_discreteIndex hslot
  have hread : (Item.value item).discreteIndex slot = .ok choice :=
    Item.withDiscreteFacet_eq_ok_iff.mpr ⟨item, rfl, hexposes, hchoice⟩
  have hanswer : (Item.value item).answer (.read (.choice slot)) =
      .ok ((choice.map .ofIndex).getD .null) := by
    simp only [Item.answer, Item.read, hread]
    rfl
  exact invoke_eq_ok_iff.mpr ⟨_, _, hfind, hrequest, hanswer, rfl⟩

end Binding

theorem Item.choices_ne_nil_of_exposes {item : ValueItem}
    (hexposes : (Item.value item).Exposes .discreteIndex) : item.choices ≠ [] := by
  intro hempty
  simp [Exposes, MethodKind.capability, Capabilities.has, capabilities_value, hempty] at hexposes

/-! ## Calls of setters and getters -/

namespace EffectiveParameters

/-- A value that a setter accepts comes back from the getter in its stored form and, where the item
is discrete, as its first choice; other slots and other items answer as before. A slot that is left
out is the first one. -/
theorem call_getter_setter (api : EffectiveParameters) (name setter getter : String)
    (bound : api.methods.get? setter = some ⟨name, .setValue⟩)
    (read : api.methods.get? getter = some ⟨name, .value⟩) :
    (∀ i v answer after, api.call setter [.int i, v] = (.ok answer, after) →
      ∃ item, api.parameters.find? name = some (.value item) ∧
        after.call getter [.int i] = (.ok (item.definition.type.storedForm v), after) ∧
        (∀ j, j ≠ i → (after.call getter [.int j]).1 = (api.call getter [.int j]).1) ∧
        (∀ method binding arguments, api.methods.get? method = some binding →
          binding.item ≠ name → binding.kind.IsGetter →
          (after.call method arguments).1 = (api.call method arguments).1) ∧
        (∀ method, api.methods.get? method = some ⟨name, .discreteIndex⟩ →
          (Item.value item).Exposes .discreteIndex →
          (item.definition.type.storedForm v = .null →
            after.call method [.int i] = (.ok .null, after)) ∧
          (item.definition.type.storedForm v ≠ .null →
            ∃ n, item.IsFirstChoice (item.definition.type.storedForm v) n ∧
              after.call method [.int i] = (.ok (.ofIndex n), after)))) ∧
    (∀ v, api.call setter [v] = api.call setter [.int 0, v]) ∧
    api.call getter [] = api.call getter [.int 0] := by
  refine ⟨fun i v answer after hcall => ?_, fun v => ?_, ?_⟩
  · rw [call_of_bound bound] at hcall
    obtain ⟨hanswer, rfl⟩ := Prod.mk.inj hcall
    obtain ⟨item, slot, stored, hfind, hslot, hbound, hadmit, hafter, hothers⟩ :=
      Binding.setValue_of_invoke (Prod.ext hanswer rfl)
    obtain ⟨rfl, hchoices⟩ := ValueItem.admit?_eq_ok hadmit
    refine ⟨item, hfind, ?_, fun j hne => ?_, fun method binding arguments hget hother _ => ?_,
      fun method hget hexposes => ?_⟩
    · have hvalue := ValueItem.value_withValue_self (item.definition.type.storedForm v) hbound
      rw [call_withParameters_of_bound read, Binding.invoke_value_of_ok hafter hslot hvalue]
    · rw [call_withParameters_of_bound read, call_of_bound read]
      refine Binding.invoke_value_congr hfind hafter fun other hj => ?_
      have hapart : other ≠ slot := by
        rintro rfl
        exact hne (Value.index?_int_injective hj hslot)
      exact ValueItem.value_withValue_ne hapart
    · rw [call_withParameters_of_bound hget, call_of_bound hget]
      exact Binding.invoke_answer_congr (hothers _ hother)
    · -- The write was admitted, so the stored form of a discrete item is null or one of its choices.
      have hnonempty := Item.choices_ne_nil_of_exposes hexposes
      have hindex := ValueItem.discreteIndex_withValue_self
        (item.definition.type.storedForm v) hbound
      rw [call_withParameters_of_bound hget,
        Binding.invoke_discreteIndex_of_ok hafter hnonempty hslot hindex]
      constructor
      · intro hnull
        simp [hnull, ValueItem.choiceOf?_null]
      · intro hvalue
        have hany := (hchoices.resolve_left hnonempty).resolve_left hvalue
        obtain ⟨n, hn, hfirst⟩ := ValueItem.exists_choiceOf? hvalue hany
        exact ⟨n, hfirst, by simp [hn]⟩
  · rw [call_of_bound bound, call_of_bound bound]
    rfl
  · rw [call_of_bound read, call_of_bound read]
    rfl

/-- A float item of two slots that holds one of two values, and a switch. -/
def panel : EffectiveParameters where
  parameters :=
    ⟨"panel",
      [.value ⟨{ name := "scale", type := .double, numberOfValues := 2 },
          [.float (.ofInt 1), .float (.ofInt 2)], [.null, .null], false⟩,
        .switch (.ofDefinition { name := "grid", type := .void, optional := true })], 2⟩
  options := {}
  methods :=
    ⟨[("enableGrid", ⟨"grid", .enable⟩), ("gridEnabled", ⟨"grid", .isEnabled⟩),
      ("scale", ⟨"scale", .value⟩), ("scaleIndex", ⟨"scale", .discreteIndex⟩),
      ("setScale", ⟨"scale", .setValue⟩), ("setScaleIndex", ⟨"scale", .setDiscreteIndex⟩)]⟩
  synthesizedVersion := 2

example : ofParameters panel.parameters panel.options = .ok panel := by decide +kernel

theorem call_getter_setter_panel :
    ∃ after, panel.call "setScale" [.int 1, .int 2] = (.ok .null, after) ∧
      after.call "scale" [.int 1] = (.ok (.float (.ofInt 2)), after) ∧
      (after.call "scale" [.int 0]).1 = (panel.call "scale" [.int 0]).1 ∧
      (after.call "gridEnabled" []).1 = (panel.call "gridEnabled" []).1 ∧
      ∃ n, after.call "scaleIndex" [.int 1] = (.ok (.ofIndex n), after) := by
  have hcall : panel.call "setScale" [.int 1, .int 2] =
      (.ok .null, (panel.call "setScale" [.int 1, .int 2]).2) := by decide +kernel
  obtain ⟨item, hfind, hvalue, hslots, hothers, hchoice⟩ :=
    (call_getter_setter panel "scale" "setScale" "scale" (by decide) (by decide)).1 _ _ _ _ hcall
  have hitem : panel.parameters.find? "scale" =
      some (.value ⟨{ name := "scale", type := .double, numberOfValues := 2 },
        [.float (.ofInt 1), .float (.ofInt 2)], [.null, .null], false⟩) := by decide +kernel
  obtain rfl := Item.value.inj (Option.some.inj (hfind.symm.trans hitem))
  obtain ⟨n, -, hindex⟩ := (hchoice "scaleIndex" (by decide) rfl).2 (by decide +kernel)
  exact ⟨_, hcall, hvalue, hslots 0 (by decide),
    hothers "gridEnabled" ⟨"grid", .isEnabled⟩ [] (by decide) (by decide) trivial, n, hindex⟩

end EffectiveParameters

end MethodSynthesis
