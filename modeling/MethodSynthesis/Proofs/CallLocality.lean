import MethodSynthesis.Proofs.ContainerStructure
import MethodSynthesis.Synthesis.EffectiveParameters

/-!
# Calls are atomic and local

A call that fails leaves everything as it was. A call that succeeds reaches the bound item alone,
and of it no more than the kind of the method tells: a getter nothing, a setter one slot, the switch
the enabled flag.
-/

namespace MethodSynthesis

open Outcomes

/-! ## Requests -/

namespace Request

variable {method : String}

def capability : Request → Capability
  | .read r => r.capability
  | .write w => w.capability

theorem readIndex_eq_ok_iff {position index : Nat} {argument : Value} :
    readIndex method position argument = .ok index ↔ argument.index? = some index := by
  unfold readIndex
  split <;> simp_all

theorem readFlag_eq_ok_iff {position : Nat} {argument : Value} {flag : Bool} :
    readFlag method position argument = .ok flag ↔ argument.bool? = some flag := by
  unfold readFlag
  split <;> simp_all

end Request

/-- The slot that the arguments of a setter address. -/
def MethodKind.slot? : MethodKind → List Value → Option Nat
  | .setValue, [_] => some 0
  | .setValue, [slot, _] | .setDiscreteIndex, [slot, _] => slot.index?
  | _, _ => none

inductive MethodKind.Makes (arguments : List Value) : MethodKind → Request → Prop
  | setValue {slot : Nat} (v : Value) (hslot : MethodKind.slot? .setValue arguments = some slot) :
      Makes arguments .setValue (.write (.value slot v))
  | value (slot : Nat) : Makes arguments .value (.read (.value slot))
  | enable (enabled : Bool) : Makes arguments .enable (.write (.enabled enabled))
  | isEnabled : Makes arguments .isEnabled (.read .enabled)
  | setDiscreteIndex {slot : Nat} (choice : Nat)
      (hslot : MethodKind.slot? .setDiscreteIndex arguments = some slot) :
      Makes arguments .setDiscreteIndex (.write (.choice slot choice))
  | discreteIndex (slot : Nat) : Makes arguments .discreteIndex (.read (.choice slot))

theorem Request.makes_of_ofArguments {kind : MethodKind} {method : String} {arguments : List Value}
    {request : Request} (h : ofArguments kind method arguments = .ok request) :
    kind.Makes arguments request := by
  unfold ofArguments at h
  split at h
  · cases h
    exact .setValue _ rfl
  · simp only [bind_eq_ok_iff, readIndex_eq_ok_iff, pure_eq_ok_iff] at h
    obtain ⟨slot, hslot, rfl⟩ := h
    exact .setValue _ hslot
  · cases h
    exact .value 0
  · simp only [bind_eq_ok_iff, readIndex_eq_ok_iff, pure_eq_ok_iff] at h
    obtain ⟨slot, -, rfl⟩ := h
    exact .value slot
  · simp only [bind_eq_ok_iff, readFlag_eq_ok_iff, pure_eq_ok_iff] at h
    obtain ⟨enabled, -, rfl⟩ := h
    exact .enable enabled
  · cases h
    exact .isEnabled
  · simp only [bind_eq_ok_iff, readIndex_eq_ok_iff, pure_eq_ok_iff] at h
    obtain ⟨slot, hslot, choice, -, rfl⟩ := h
    exact .setDiscreteIndex choice hslot
  · simp only [bind_eq_ok_iff, readIndex_eq_ok_iff, pure_eq_ok_iff] at h
    obtain ⟨slot, -, rfl⟩ := h
    exact .discreteIndex slot
  · cases h

theorem MethodKind.Makes.capability_eq {kind : MethodKind} {arguments : List Value}
    {request : Request} (h : kind.Makes arguments request) :
    request.capability = kind.capability := by
  cases h <;> rfl

inductive Request.Refuses (kind : MethodKind) (method : String) (arguments : List Value) :
    SynthesisError → Prop
  | arity : Refuses kind method arguments (.arity method kind arguments.length)
  | argument (position : Nat) (expected : ArgumentKind) (actual : Value) :
      Refuses kind method arguments (.argumentType method position expected actual)

namespace Request

variable {kind : MethodKind} {method : String} {arguments : List Value} {e : SynthesisError}

theorem refuses_of_readIndex {position : Nat} {argument : Value}
    (h : readIndex method position argument = .error e) : Refuses kind method arguments e := by
  unfold readIndex at h
  split at h
  · cases h
  · cases h
    exact .argument position .index argument

theorem refuses_of_readFlag {position : Nat} {argument : Value}
    (h : readFlag method position argument = .error e) : Refuses kind method arguments e := by
  unfold readFlag at h
  split at h
  · cases h
  · cases h
    exact .argument position .flag argument

theorem refuses_of_ofArguments (h : ofArguments kind method arguments = .error e) :
    Refuses kind method arguments e := by
  unfold ofArguments at h
  split at h
  all_goals
    simp only [bind_eq_error_iff, reduceCtorEq, pure, Except.pure, and_false, exists_false,
      or_false, Except.error.injEq] at h
  · exact refuses_of_readIndex h
  · exact refuses_of_readIndex h
  · exact refuses_of_readFlag h
  · rcases h with hslot | ⟨_, -, hchoice⟩
    · exact refuses_of_readIndex hslot
    · exact refuses_of_readIndex hchoice
  · exact refuses_of_readIndex h
  · subst h
    exact .arity

end Request

/-! ## What an invocation can do -/

/-- The ways in which an invocation ends: the item or the arguments are not found fit, the item
refuses, a question is answered, or a write is made. -/
inductive Binding.Ends (binding : Binding) (method : String) (p : Parameters)
    (arguments : List Value) : Except SynthesisError Value × Parameters → Prop
  | missing (hfind : p.find? binding.item = none) :
      Ends binding method p arguments (.error (.itemNotFound binding.item), p)
  | unfit {e : SynthesisError}
      (harguments : Request.ofArguments binding.kind method arguments = .error e) :
      Ends binding method p arguments (.error e, p)
  | unread {item : Item} {r : ItemRead} {e : FacetError} (hfind : p.find? binding.item = some item)
      (hmakes : binding.kind.Makes arguments (.read r)) (hread : item.read r = .error e) :
      Ends binding method p arguments (.error (binding.facetError e), p)
  | unwritten {item : Item} {w : ItemWrite} {e : FacetError}
      (hfind : p.find? binding.item = some item)
      (hmakes : binding.kind.Makes arguments (.write w)) (hwrite : item.write w = .error e) :
      Ends binding method p arguments (.error (binding.facetError e), p)
  | read {item : Item} {r : ItemRead} {v : Value} (hfind : p.find? binding.item = some item)
      (hmakes : binding.kind.Makes arguments (.read r)) (hread : item.read r = .ok v) :
      Ends binding method p arguments (.ok v, p)
  | written {item after : Item} {w : ItemWrite} (hfind : p.find? binding.item = some item)
      (hmakes : binding.kind.Makes arguments (.write w)) (hwrite : item.write w = .ok after) :
      Ends binding method p arguments (.ok .null, p.update binding.item after)

theorem Binding.ends_invoke (binding : Binding) (method : String) (p : Parameters)
    (arguments : List Value) :
    binding.Ends method p arguments (binding.invoke method p arguments) := by
  unfold invoke
  cases hfind : p.find? binding.item with
  | none => exact .missing hfind
  | some item =>
      cases hrequest : Request.ofArguments binding.kind method arguments with
      | error e => exact .unfit hrequest
      | ok request =>
          have hmakes := Request.makes_of_ofArguments hrequest
          cases request with
          | read r =>
              cases hread : item.read r with
              | error e => simpa only [serve, hread] using Ends.unread hfind hmakes hread
              | ok v => simpa only [serve, hread] using Ends.read hfind hmakes hread
          | write w =>
              cases hwrite : item.write w with
              | error e => simpa only [serve, hwrite] using Ends.unwritten hfind hmakes hwrite
              | ok after => simpa only [serve, hwrite] using Ends.written hfind hmakes hwrite

/-! ## Items that differ in one place -/

namespace Item

def AgreesExceptSlot (slot : Nat) : Item → Item → Prop
  | .value x, .value y =>
      y.definition = x.definition ∧ y.choices = x.choices ∧ y.enabled = x.enabled ∧
        y.values.length = x.values.length ∧
        ∀ other, other ≠ slot → y.values[other]? = x.values[other]?
  | _, _ => False

def AgreesExceptFlag : Item → Item → Prop
  | .value x, .value y =>
      y.definition = x.definition ∧ y.choices = x.choices ∧ y.values = x.values
  | .switch x, .switch y => y.definition = x.definition
  | _, _ => False

theorem agreesExceptSlot_withValue (x : ValueItem) (slot : Nat) (stored : Value) :
    AgreesExceptSlot slot (.value x) (.value (x.withValue slot stored)) := by
  refine ⟨rfl, rfl, rfl, List.length_set, fun other hother => ?_⟩
  rw [ValueItem.withValue_values, List.getElem?_set_ne hother.symm]

theorem agreesExceptFlag_withEnabled (item : Item) (enabled : Bool) :
    item.AgreesExceptFlag (item.withEnabled enabled) := by
  cases item with
  | value x => exact ⟨rfl, rfl, rfl⟩
  | switch x => exact rfl

end Item

/-! ## Containers that differ in one item -/

/-- The containers agree but for the first item of a name, which is related to its predecessor. -/
structure Parameters.DiffersAt (name : String) (related : Item → Item → Prop)
    (p q : Parameters) : Prop where
  name_eq : q.name = p.name
  version_eq : q.version = p.version
  itemNames_eq : q.itemNames = p.itemNames
  elsewhere : ∀ position, p.position? name ≠ some position →
    q.items[position]? = p.items[position]?
  changed : ∃ before after, p.find? name = some before ∧ q.find? name = some after ∧
    related before after

theorem Parameters.differsAt_update {p : Parameters} {name : String} {item after : Item}
    {w : ItemWrite} {related : Item → Item → Prop} (hfind : p.find? name = some item)
    (hwrite : item.write w = .ok after) (hrelated : related item after) :
    p.DiffersAt name related (p.update name after) where
  name_eq := name_update p name after
  version_eq := version_update p name after
  itemNames_eq := map_items_update hfind (Item.write_name hwrite)
  elsewhere := by
    intro position hposition
    obtain ⟨before, rest, hitems, hname, hbefore⟩ := find?_eq_some_iff.mp hfind
    rw [position?_of_split hitems hname hbefore] at hposition
    have hne : before.length ≠ position := fun heq => hposition (congrArg some heq)
    rw [update, position?_of_split hitems hname hbefore, List.getElem?_set_ne hne]
  changed := ⟨item, after, hfind,
    find?_update_self hfind ((Item.write_name hwrite).trans (name_of_find? hfind)), hrelated⟩

/-! ## Calls -/

/-- What a successful invocation may do to a container: a getter changes nothing, the others change
one slot or the enabled flag of the bound item. -/
def Binding.Confined (binding : Binding) (arguments : List Value) (p q : Parameters) : Prop :=
  match binding.kind with
  | .value | .isEnabled | .discreteIndex => q = p
  | .setValue | .setDiscreteIndex =>
      ∃ slot, binding.kind.slot? arguments = some slot ∧
        p.DiffersAt binding.item (Item.AgreesExceptSlot slot) q
  | .enable => p.DiffersAt binding.item Item.AgreesExceptFlag q

namespace Binding

variable {binding : Binding} {arguments : List Value} {p : Parameters}

theorem confined_of_read {r : ItemRead} (hmakes : binding.kind.Makes arguments (.read r)) :
    binding.Confined arguments p p := by
  obtain ⟨owner, kind⟩ := binding
  replace hmakes : kind.Makes arguments (.read r) := hmakes
  cases hmakes with
  | value slot => exact rfl
  | isEnabled => exact rfl
  | discreteIndex slot => exact rfl

theorem confined_of_write {w : ItemWrite} {item after : Item}
    (hmakes : binding.kind.Makes arguments (.write w)) (hfind : p.find? binding.item = some item)
    (hwrite : item.write w = .ok after) :
    binding.Confined arguments p (p.update binding.item after) := by
  obtain ⟨owner, kind⟩ := binding
  replace hmakes : kind.Makes arguments (.write w) := hmakes
  cases hmakes with
  | setValue v hslot =>
      obtain ⟨x, stored, rfl, -, -, rfl⟩ := Item.write_value_eq_ok_iff.mp hwrite
      exact ⟨_, hslot, Parameters.differsAt_update hfind hwrite
        (Item.agreesExceptSlot_withValue x _ stored)⟩
  | enable enabled =>
      obtain ⟨-, rfl⟩ := Item.write_enabled_eq_ok_iff.mp hwrite
      exact Parameters.differsAt_update hfind hwrite
        (Item.agreesExceptFlag_withEnabled item enabled)
  | setDiscreteIndex choice hslot =>
      obtain ⟨x, stored, rfl, -, -, rfl⟩ := Item.write_choice_eq_ok_iff.mp hwrite
      exact ⟨_, hslot, Parameters.differsAt_update hfind hwrite
        (Item.agreesExceptSlot_withValue x _ stored)⟩

/-- However an invocation ends, an error means the container as it was. -/
theorem invoke_confined (binding : Binding) (method : String) (p : Parameters)
    (arguments : List Value) :
    match binding.invoke method p arguments with
    | (.error _, q) => q = p
    | (.ok _, q) => binding.Confined arguments p q := by
  have hends := binding.ends_invoke method p arguments
  generalize binding.invoke method p arguments = outcome at hends ⊢
  cases hends with
  | missing => exact rfl
  | unfit => exact rfl
  | unread => exact rfl
  | unwritten => exact rfl
  | read hfind hmakes hread => exact confined_of_read hmakes
  | written hfind hmakes hwrite => exact confined_of_write hmakes hfind hwrite

end Binding

/-- Invocations and calls that fail change nothing; those that succeed change no more than the kind
of the bound method tells, and never the table. -/
theorem EffectiveParameters.call_atomic_local :
    (∀ (binding : Binding) (method : String) (p : Parameters) (arguments : List Value),
      match binding.invoke method p arguments with
      | (.error _, q) => q = p
      | (.ok _, q) => binding.Confined arguments p q) ∧
    (∀ (api : EffectiveParameters) (method : String) (arguments : List Value),
      match api.call method arguments with
      | (.error _, after) => after = api
      | (.ok _, after) =>
          after.methods = api.methods ∧ after.options = api.options ∧
            after.synthesizedVersion = api.synthesizedVersion ∧
            ∃ binding, api.methods.get? method = some binding ∧
              binding.Confined arguments api.parameters after.parameters) := by
  refine ⟨Binding.invoke_confined, fun api method arguments => ?_⟩
  cases hget : api.methods.get? method with
  | none => simp only [call, hget]
  | some binding =>
      have hconfined := binding.invoke_confined method api.parameters arguments
      simp only [call, hget]
      cases houtcome : binding.invoke method api.parameters arguments with
      | mk result q =>
          rw [houtcome] at hconfined
          cases result with
          | error e => exact congrArg (fun q => { api with parameters := q }) hconfined
          | ok v => exact ⟨rfl, rfl, rfl, binding, rfl, hconfined⟩

end MethodSynthesis
