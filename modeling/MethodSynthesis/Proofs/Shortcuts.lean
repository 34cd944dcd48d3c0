import Mathlib.Algebra.Ring.Nat
import Mathlib.Data.List.Induction
import MethodSynthesis.Proofs.CallAnswers
import MethodSynthesis.Proofs.Staleness

/-!
# Shortcuts do what the item itself does

A shortcut looks up a method of an item and calls it with positions turned into integers. Where the
item has such a method, this is the same as asking the item directly; a position that an integer
cannot hold is refused, as the item would refuse it.
-/

namespace MethodSynthesis

open Outcomes

/-! ## Positions as integers -/

theorem Value.index?_ofIndex_of_lt {n : Nat} (h : n < 2 ^ 63) : (ofIndex n).index? = some n := by
  have hint : (Int64.ofNat n).toInt = n := Int64.toInt_ofNat_of_lt h
  simp [ofIndex, index?, hint]

/-- A position in the upper half of the words wraps to a negative integer, which is none. -/
theorem Value.index?_ofIndex_of_ge {n : Nat} (hword : n < 2 ^ 64) (h : 2 ^ 63 ≤ n) :
    (ofIndex n).index? = none := by
  have hint : (Int64.ofNat n).toInt = (n : Int) - 2 ^ 64 := by
    rw [Int64.toInt_ofNat', Int64.size, Int.bmod_def, if_neg (by omega)]
    omega
  have hnegative : ¬ 0 ≤ (Int64.ofNat n).toInt := by
    rw [hint]
    omega
  simp only [ofIndex, index?, hnegative, if_false]

/-! ## Requests as calls -/

namespace Request

def kind : Request → MethodKind
  | .write (.value _ _) => .setValue
  | .read (.value _) => .value
  | .write (.enabled _) => .enable
  | .read .enabled => .isEnabled
  | .write (.choice _ _) => .setDiscreteIndex
  | .read (.choice _) => .discreteIndex

def arguments : Request → List Value
  | .write (.value slot v) => [.ofIndex slot, v]
  | .read (.value slot) => [.ofIndex slot]
  | .write (.enabled enabled) => [.bool enabled]
  | .read .enabled => []
  | .write (.choice slot choice) => [.ofIndex slot, .ofIndex choice]
  | .read (.choice slot) => [.ofIndex slot]

def positions : Request → List Nat
  | .write (.value slot _) | .read (.value slot) | .read (.choice slot) => [slot]
  | .write (.choice slot choice) => [slot, choice]
  | .write (.enabled _) | .read .enabled => []

variable {request : Request} {method : String}

theorem readIndex_ofIndex {n : Nat} (place : Nat) (h : n < 2 ^ 63) :
    readIndex method place (.ofIndex n) = .ok n :=
  readIndex_eq_ok_iff.mpr (Value.index?_ofIndex_of_lt h)

theorem ofArguments_arguments (hfits : ∀ n ∈ request.positions, n < 2 ^ 63) :
    ofArguments request.kind method request.arguments = .ok request := by
  cases request with
  | read r =>
      cases r with
      | value slot | choice slot =>
          have hslot : slot < 2 ^ 63 := hfits slot (by simp [positions])
          simp only [kind, arguments, ofArguments, readIndex_ofIndex _ hslot]
          rfl
      | enabled => rfl
  | write w =>
      cases w with
      | value slot v =>
          have hslot : slot < 2 ^ 63 := hfits slot (by simp [positions])
          simp only [kind, arguments, ofArguments, readIndex_ofIndex _ hslot]
          rfl
      | enabled enabled => rfl
      | choice slot choice =>
          have hslot : slot < 2 ^ 63 := hfits slot (by simp [positions])
          have hchoice : choice < 2 ^ 63 := hfits choice (by simp [positions])
          simp only [kind, arguments, ofArguments, readIndex_ofIndex _ hslot, bind, Except.bind,
            readIndex_ofIndex _ hchoice]
          rfl

theorem positions_lt_of_ofArguments {other : Request} (hword : ∀ n ∈ request.positions, n < 2 ^ 64)
    (h : ofArguments request.kind method request.arguments = .ok other) :
    ∀ n ∈ request.positions, n < 2 ^ 63 := by
  have hfits : ∀ {n m : Nat}, n ∈ request.positions → (Value.ofIndex n).index? = some m →
      n < 2 ^ 63 := by
    intro n m hn hm
    by_contra hge
    rw [Value.index?_ofIndex_of_ge (hword n hn) (by omega)] at hm
    cases hm
  cases request with
  | read r =>
      cases r with
      | value slot | choice slot =>
          simp only [kind, arguments, ofArguments, bind_eq_ok_iff, readIndex_eq_ok_iff] at h
          obtain ⟨_, hslot, -⟩ := h
          simp only [positions, List.mem_singleton, forall_eq]
          exact hfits (by simp [positions]) hslot
      | enabled => simp [positions]
  | write w =>
      cases w with
      | value slot v =>
          simp only [kind, arguments, ofArguments, bind_eq_ok_iff, readIndex_eq_ok_iff] at h
          obtain ⟨_, hslot, -⟩ := h
          simp only [positions, List.mem_singleton, forall_eq]
          exact hfits (by simp [positions]) hslot
      | enabled enabled => simp [positions]
      | choice slot choice =>
          simp only [kind, arguments, ofArguments, bind_eq_ok_iff, readIndex_eq_ok_iff] at h
          obtain ⟨_, hslot, _, hchoice, -⟩ := h
          have hslotFits := hfits (by simp [positions]) hslot
          have hchoiceFits := hfits (by simp [positions]) hchoice
          simp only [positions, List.mem_cons, List.not_mem_nil, or_false, forall_eq_or_imp,
            forall_eq]
          exact ⟨hslotFits, hchoiceFits⟩

end Request

/-! ## Positions that items have -/

theorem ValueItem.lt_of_value_eq_ok {item : ValueItem} {slot : Nat} {v : Value}
    (h : item.value slot = .ok v) : slot < item.values.length := by
  unfold value at h
  split at h
  · rename_i hslot
    exact (List.getElem?_eq_some_iff.mp hslot).1
  · cases h

namespace Item

variable {item : Item} {request : Request} {answer : Value}

/-- The slots and the choices of the item are counted by integers. -/
def Countable : Item → Prop
  | .value x => x.values.length < 2 ^ 63 ∧ x.choices.length < 2 ^ 63
  | .switch _ => True

theorem positions_lt_of_answer (hcountable : item.Countable)
    (hanswer : item.answer request = .ok answer) : ∀ n ∈ request.positions, n < 2 ^ 63 := by
  cases request with
  | read r =>
      cases r with
      | value slot =>
          obtain ⟨x, rfl, hvalue⟩ := withValueFacet_eq_ok_iff.mp hanswer
          have hslot := ValueItem.lt_of_value_eq_ok hvalue
          have hcount := hcountable.1
          simp only [Request.positions, List.mem_singleton, forall_eq]
          omega
      | enabled => simp [Request.positions]
      | choice slot =>
          obtain ⟨found, hfound, -⟩ := map_eq_ok_iff.mp hanswer
          obtain ⟨x, rfl, -, hindex⟩ := withDiscreteFacet_eq_ok_iff.mp hfound
          obtain ⟨stored, hvalue, -⟩ := bind_eq_ok_iff.mp hindex
          have hslot := ValueItem.lt_of_value_eq_ok hvalue
          have hcount := hcountable.1
          simp only [Request.positions, List.mem_singleton, forall_eq]
          omega
  | write w =>
      obtain ⟨after, hwrite, -⟩ := map_eq_ok_iff.mp hanswer
      cases w with
      | value slot v =>
          obtain ⟨x, stored, rfl, hslot, -, -⟩ := write_value_eq_ok_iff.mp hwrite
          have hcount := hcountable.1
          simp only [Request.positions, List.mem_singleton, forall_eq]
          omega
      | enabled enabled => simp [Request.positions]
      | choice slot choice =>
          obtain ⟨x, stored, rfl, hslot, hchoice, -⟩ := write_choice_eq_ok_iff.mp hwrite
          have hchoiceBound := (List.getElem?_eq_some_iff.mp hchoice).1
          obtain ⟨hslots, hchoices⟩ := hcountable
          simp only [Request.positions, List.mem_cons, List.not_mem_nil, or_false, forall_eq_or_imp,
            forall_eq]
          omega

end Item

/-! ## Requests by way of calls -/

namespace Binding

variable {binding : Binding} {request : Request} {p : Parameters}

/-- Put as a call, a request has the answer that the item gives, up to the kind of error, and leaves
the same container behind. -/
theorem invoke_arguments (method : String) (hkind : binding.kind = request.kind)
    (hword : ∀ n ∈ request.positions, n < 2 ^ 64)
    (hcountable : ∀ item, p.find? binding.item = some item → item.Countable) :
    (binding.invoke method p request.arguments).1.toOption =
        ((p.find? binding.item).bind fun item => (item.answer request).toOption) ∧
      (binding.invoke method p request.arguments).2 = p.afterRequest binding.item request := by
  cases hfind : p.find? binding.item with
  | none =>
      rw [invoke_of_missing hfind, Parameters.afterRequest_of_missing hfind]
      exact ⟨rfl, rfl⟩
  | some item =>
      cases hrequest : Request.ofArguments binding.kind method request.arguments with
      | ok other =>
          rw [hkind] at hrequest
          have hfits := Request.positions_lt_of_ofArguments hword hrequest
          have hread : Request.ofArguments binding.kind method request.arguments = .ok request := by
            rw [hkind]
            exact Request.ofArguments_arguments hfits
          rw [invoke_of_request hfind hread]
          exact ⟨toOption_mapError _ _, rfl⟩
      | error e =>
          rw [invoke_of_unfit hfind hrequest]
          -- Refused arguments hold a position that wraps, and no countable item has that position.
          cases hanswer : item.answer request with
          | ok answer =>
              have hfits := Item.positions_lt_of_answer (hcountable item hfind) hanswer
              rw [hkind, Request.ofArguments_arguments hfits] at hrequest
              cases hrequest
          | error fault =>
              rw [Parameters.afterRequest_of_error hfind hanswer]
              exact ⟨by simp [hanswer, Except.toOption], rfl⟩

theorem invoke_arguments_of_wraps (method : String) (p : Parameters)
    (hkind : binding.kind = request.kind) (hword : ∀ n ∈ request.positions, n < 2 ^ 64)
    (hwraps : ∃ n ∈ request.positions, 2 ^ 63 ≤ n) :
    ∃ e, binding.invoke method p request.arguments = (.error e, p) := by
  cases hfind : p.find? binding.item with
  | none => exact ⟨_, invoke_of_missing hfind⟩
  | some item =>
      cases hrequest : Request.ofArguments binding.kind method request.arguments with
      | ok other =>
          obtain ⟨n, hn, hge⟩ := hwraps
          rw [hkind] at hrequest
          have hfits := Request.positions_lt_of_ofArguments hword hrequest n hn
          omega
      | error e => exact ⟨e, invoke_of_unfit hfind hrequest⟩

end Binding

namespace EffectiveParameters

variable {api : EffectiveParameters} {name : String} {kind : MethodKind}

theorem ordered_perform (h : api.methods.Ordered) (command : Command) :
    (api.perform command).2.methods.Ordered := by
  have hends := api.ends_perform command
  generalize api.perform command = outcome at hends ⊢
  cases hends with
  | changed c => exact h
  | renewed hsynthesize => exact Parameters.ordered_of_synthesize hsynthesize
  | notRenewed hsynthesize => exact h
  | called hcall hends =>
      obtain ⟨q, hq, -, -⟩ := hends.shape_version
      rw [hq]
      exact h

theorem ordered_performAll (h : api.methods.Ordered) (commands : List Command) :
    (api.performAll commands).methods.Ordered := by
  induction commands using List.reverseRec with
  | nil => exact h
  | append_singleton before command ih =>
      rw [performAll_append_singleton]
      exact ordered_perform ih command

/-! ## Calls by item -/

theorem callItem_of_unbound (hordered : api.methods.Ordered)
    (hunbound : ∀ method, api.methods.get? method ≠ some ⟨name, kind⟩) (q : Parameters)
    (arguments : List Value) :
    ({ api with parameters := q } : EffectiveParameters).callItem name kind arguments =
      (.error (.unknownMethod (kind.name ++ " of " ++ name)), { api with parameters := q }) := by
  have hnone := (MethodTable.methodFor?_eq_none_iff hordered).mpr hunbound
  simp only [callItem, hnone]

theorem callItem_of_bound (hordered : api.methods.Ordered) {method : String}
    (hget : api.methods.get? method = some ⟨name, kind⟩) :
    ∃ first, ∀ q arguments,
      ({ api with parameters := q } : EffectiveParameters).callItem name kind arguments =
        (((⟨name, kind⟩ : Binding).invoke first q arguments).1,
          { api with parameters := ((⟨name, kind⟩ : Binding).invoke first q arguments).2 }) := by
  cases hfirst : api.methods.methodFor? name kind with
  | none => exact absurd hget ((MethodTable.methodFor?_eq_none_iff hordered).mp hfirst method)
  | some first =>
      refine ⟨first, fun q arguments => ?_⟩
      have hbound := MethodTable.get?_of_methodFor? hordered hfirst
      simp only [callItem, hfirst]
      exact call_withParameters_of_bound hbound q arguments

/-! ## Shortcuts -/

/-- A shortcut that puts a request to the item of a name. It fails for want of a method, with no
effect, exactly where no method of the kind is bound to the item. Otherwise it succeeds where the
item answers directly, with the same answer, and leaves the container behind the request. A position
that wraps is refused. In no case is another item read or changed. -/
structure Routes {α : Type} (api : EffectiveParameters) (name : String) (request : Request)
    (shortcut : EffectiveParameters → Except SynthesisError α × EffectiveParameters)
    (direct : Item → Except FacetError α) : Prop where
  unknown_iff : (∃ method, (shortcut api).1 = .error (.unknownMethod method)) ↔
    ∀ method, api.methods.get? method ≠ some ⟨name, request.kind⟩
  unknown_unchanged : (∀ method, api.methods.get? method ≠ some ⟨name, request.kind⟩) →
    (shortcut api).2 = api
  same : ∀ method, api.methods.get? method = some ⟨name, request.kind⟩ →
    (∀ item, api.parameters.find? name = some item → item.Countable) →
    (shortcut api).1.toOption =
        ((api.parameters.find? name).bind fun item => (direct item).toOption) ∧
      (shortcut api).2 = { api with parameters := api.parameters.afterRequest name request }
  wraps : (∃ n ∈ request.positions, 2 ^ 63 ≤ n) →
    (∃ e, (shortcut api).1 = .error e) ∧ (shortcut api).2 = api
  reads : ∀ q : Parameters, q.find? name = api.parameters.find? name →
    (shortcut { api with parameters := q }).1 = (shortcut api).1
  elsewhere : ∀ position, api.parameters.position? name ≠ some position →
    (shortcut api).2.parameters.items[position]? = api.parameters.items[position]?

theorem routes_callItem (hordered : api.methods.Ordered) {request : Request}
    (hword : ∀ n ∈ request.positions, n < 2 ^ 64) :
    api.Routes name request (fun api => api.callItem name request.kind request.arguments)
      (fun item => item.answer request) := by
  by_cases hbound : ∃ method, api.methods.get? method = some ⟨name, request.kind⟩
  · obtain ⟨method, hget⟩ := hbound
    obtain ⟨first, hcall⟩ := callItem_of_bound hordered hget
    have hself := hcall api.parameters request.arguments
    have hkind : (⟨name, request.kind⟩ : Binding).kind = request.kind := rfl
    have hnotUnbound : ¬ ∀ method, api.methods.get? method ≠ some ⟨name, request.kind⟩ :=
      fun hunbound => hunbound method hget
    refine ⟨?_, fun hunbound => absurd hunbound hnotUnbound, fun _ _ hcountable => ?_,
      fun hwraps => ?_, fun q hsame => ?_, fun position hposition => ?_⟩
    · rw [hself]
      refine ⟨fun ⟨unknown, herror⟩ => ?_, fun hunbound => absurd hunbound hnotUnbound⟩
      exact absurd herror (Binding.invoke_ne_unknown _ _ _ _ _)
    · rw [hself]
      obtain ⟨hanswer, hafter⟩ := Binding.invoke_arguments first hkind hword hcountable
      exact ⟨hanswer, by rw [hafter]⟩
    · rw [hself]
      obtain ⟨e, hrefused⟩ :=
        Binding.invoke_arguments_of_wraps first api.parameters hkind hword hwraps
      rw [hrefused]
      exact ⟨⟨e, rfl⟩, rfl⟩
    · rw [hself, hcall]
      exact Binding.invoke_answer_congr hsame
    · rw [hself]
      exact Binding.invoke_elsewhere _ _ _ _ hposition
  · have hunbound : ∀ method, api.methods.get? method ≠ some ⟨name, request.kind⟩ :=
      fun method hget => hbound ⟨method, hget⟩
    have hcall := callItem_of_unbound hordered hunbound
    have hself := hcall api.parameters request.arguments
    refine ⟨?_, fun _ => ?_, fun method hget => absurd hget (hunbound method), fun _ => ?_,
      fun q _ => ?_, fun position _ => ?_⟩
    · rw [hself]
      exact ⟨fun _ => hunbound, fun _ => ⟨_, rfl⟩⟩
    · rw [hself]
    · rw [hself]
      exact ⟨⟨_, rfl⟩, rfl⟩
    · rw [hself, hcall]
    · rw [hself]

theorem Routes.mapResult {α β : Type} {request : Request}
    {shortcut : EffectiveParameters → Except SynthesisError α × EffectiveParameters}
    {direct : Item → Except FacetError α} {made : Item → Except FacetError β} {f : α → β}
    (h : api.Routes name request shortcut direct)
    (hmade : ∀ item : Item, item.Countable → made item = (direct item).map f) :
    api.Routes name request (fun api => EffectiveParameters.mapResult f (shortcut api)) made := by
  refine ⟨?_, h.unknown_unchanged, fun method hget hcountable => ?_, fun hwraps => ?_,
    fun q hsame => congrArg (Except.map f) (h.reads q hsame), h.elsewhere⟩
  · simp only [EffectiveParameters.mapResult, map_eq_error_iff]
    exact h.unknown_iff
  · obtain ⟨hanswer, hafter⟩ := h.same method hget hcountable
    refine ⟨?_, hafter⟩
    rw [EffectiveParameters.mapResult, toOption_map, hanswer]
    cases hfind : api.parameters.find? name with
    | none => rfl
    | some item =>
        have hitem := hmade item (hcountable item hfind)
        simp only [Option.bind_some, hitem, toOption_map]
  · obtain ⟨⟨e, herror⟩, hafter⟩ := h.wraps hwraps
    exact ⟨⟨e, map_eq_error_iff.mpr herror⟩, hafter⟩

theorem index?_of_choice {item : ValueItem} {slot : Nat} {choice : Option Nat}
    (hcount : item.choices.length < 2 ^ 63) (h : item.discreteIndex slot = .ok choice) :
    ((choice.map Value.ofIndex).getD .null).index? = choice := by
  obtain ⟨stored, -, hchoice⟩ := bind_eq_ok_iff.mp h
  have hchoice := pure_eq_ok_iff.mp hchoice
  subst hchoice
  unfold ValueItem.choiceOf?
  split
  · rfl
  · cases hfound : item.choices.findIdx? fun choice => choice.equals stored with
    | none => rfl
    | some n =>
        have hn : n < item.choices.length := (List.findIdx?_eq_some_iff_getElem.mp hfound).1
        exact Value.index?_ofIndex_of_lt (by omega)

theorem flag_of_callItem (hordered : api.methods.Ordered) {answer : Value}
    {after : EffectiveParameters}
    (h : api.callItem name .isEnabled [] = (.ok answer, after)) : ∃ flag, answer = .bool flag := by
  by_cases hbound : ∃ method, api.methods.get? method = some ⟨name, .isEnabled⟩
  · obtain ⟨method, hget⟩ := hbound
    obtain ⟨first, hcall⟩ := callItem_of_bound hordered hget
    have hself := hcall api.parameters []
    obtain ⟨hanswer, -⟩ := Prod.mk.inj (hself.symm.trans h)
    obtain ⟨item, request, -, hrequest, hread, -⟩ :=
      Binding.invoke_eq_ok_iff.mp (Prod.ext hanswer rfl)
    cases hrequest
    obtain ⟨flag, -, hflag⟩ := map_eq_ok_iff.mp hread
    exact ⟨flag, hflag.symm⟩
  · have hunbound : ∀ method, api.methods.get? method ≠ some ⟨name, .isEnabled⟩ :=
      fun method hget => hbound ⟨method, hget⟩
    have hself := callItem_of_unbound hordered hunbound api.parameters []
    cases hself.symm.trans h

/-- However parameters were reached, every shortcut puts its request as the item itself would answer
it, a flag is never made up, and no other item is touched. -/
theorem shortcuts_exact (p : Parameters) (options : SynthesisOptions) (api : EffectiveParameters)
    (made : ofParameters p options = .ok api) (commands : List Command)
    (final : EffectiveParameters) (reached : api.performAll commands = final) (name : String)
    (slot choice : Nat) (slotWord : slot < UInt64.size) (choiceWord : choice < UInt64.size)
    (v : Value) (enabled : Bool) :
    final.Routes name (.write (.value slot v)) (fun api => api.setValue name slot v)
      (fun item => (item.write (.value slot v)).map fun _ => ()) ∧
    final.Routes name (.read (.value slot)) (fun api => api.value name slot)
      (fun item => item.getValue slot) ∧
    final.Routes name (.write (.enabled enabled)) (fun api => api.enable name enabled)
      (fun item => (item.write (.enabled enabled)).map fun _ => ()) ∧
    final.Routes name (.read .enabled) (fun api => api.isEnabled name) Item.isEnabled ∧
    final.Routes name (.write (.choice slot choice))
      (fun api => api.setDiscreteIndex name slot choice)
      (fun item => (item.write (.choice slot choice)).map fun _ => ()) ∧
    final.Routes name (.read (.choice slot)) (fun api => api.discreteIndex name slot)
      (fun item => item.discreteIndex slot) ∧
    (∀ answer after, final.callItem name .isEnabled [] = (.ok answer, after) →
      ∃ flag, answer = .bool flag) := by
  have hordered : final.methods.Ordered := by
    obtain ⟨methods, hmethods, rfl⟩ := ofParameters_eq_ok_iff.mp made
    rw [← reached]
    exact ordered_performAll (Parameters.ordered_of_synthesize hmethods) commands
  have hroute : ∀ request : Request, (∀ n ∈ request.positions, n = slot ∨ n = choice) →
      final.Routes name request
        (fun api => api.callItem name request.kind request.arguments)
        (fun item => item.answer request) := by
    intro request hpositions
    refine routes_callItem hordered fun n hn => ?_
    unfold UInt64.size at slotWord choiceWord
    rcases hpositions n hn with rfl | rfl <;> omega
  have hwritten : ∀ (w : ItemWrite) (item : Item),
      ((item.write w).map fun _ => ()) = (item.answer (.write w)).map fun _ => () := by
    intro w item
    cases hwrite : item.write w <;> simp [Item.answer, hwrite, Except.map]
  refine ⟨?_, ?_, ?_, ?_, ?_, ?_, fun answer after => flag_of_callItem hordered⟩
  · exact (hroute (.write (.value slot v)) (by simp [Request.positions])).mapResult
      fun item _ => hwritten _ item
  · exact hroute (.read (.value slot)) (by simp [Request.positions])
  · exact (hroute (.write (.enabled enabled)) (by simp [Request.positions])).mapResult
      fun item _ => hwritten _ item
  · refine (hroute (.read .enabled) (by simp [Request.positions])).mapResult fun item _ => ?_
    cases hflag : item.isEnabled <;> simp [Item.answer, Item.read, hflag, Except.map, Value.bool?]
  · exact (hroute (.write (.choice slot choice)) (by simp [Request.positions])).mapResult
      fun item _ => hwritten _ item
  · refine (hroute (.read (.choice slot)) (by simp [Request.positions])).mapResult
      fun item hcountable => ?_
    cases hindex : item.discreteIndex slot with
    | error e => simp [Item.answer, Item.read, hindex, Except.map]
    | ok found =>
        obtain ⟨x, rfl, -, hfound⟩ := Item.withDiscreteFacet_eq_ok_iff.mp hindex
        have hback := index?_of_choice hcountable.2 hfound
        simp [Item.answer, Item.read, hindex, Except.map, hback]

/-- The twins with their table, in which the methods of the first twin are lost. -/
def twins : EffectiveParameters where
  parameters := Parameters.twins
  options := {}
  methods :=
    ⟨[("maxIterations", ⟨"max-iterations", .value⟩),
      ("setMaxIterations", ⟨"max-iterations", .setValue⟩)]⟩
  synthesizedVersion := 3

def parting : List Command :=
  [.setValue "max-iterations" 0 (.int 7), .change (.remove "max iterations")]

theorem shortcuts_exact_twins :
    ∃ final, twins.performAll parting = final ∧ final.isStale = true ∧
      (∃ method, (final.value "max iterations" 0).1 = .error (.unknownMethod method)) ∧
      (final.value "max-iterations" 0).1.toOption = some (.int 7) ∧
      ∃ e, (final.value "max-iterations" (2 ^ 64 - 1)).1 = .error e := by
  have made : ofParameters Parameters.twins {} = .ok twins := by decide +kernel
  have hmethods : (twins.performAll parting).methods = twins.methods := by decide +kernel
  have hitem : (twins.performAll parting).parameters.find? "max-iterations" =
      some (.value ⟨{ name := "max-iterations", type := .int }, [], [.int 7], false⟩) := by
    decide +kernel
  have hreads := fun name slot hslot =>
    (shortcuts_exact _ _ _ made parting _ rfl name slot 0 hslot (by decide) .null true).2.1
  refine ⟨_, rfl, by decide +kernel, ?_, ?_, ?_⟩
  · refine (hreads "max iterations" 0 (by decide)).unknown_iff.mpr fun method hget => ?_
    have hmem := Table.mem_of_lookup_eq_some hget
    rw [hmethods] at hmem
    simp [twins] at hmem
  · have hbound : (twins.performAll parting).methods.get? "maxIterations" =
        some ⟨"max-iterations", .value⟩ := by rw [hmethods]; decide
    have hcountable : ∀ item, (twins.performAll parting).parameters.find? "max-iterations" =
        some item → item.Countable := by
      intro item hfind
      obtain rfl := Option.some.inj (hfind.symm.trans hitem)
      simp [Item.Countable]
    obtain ⟨hanswer, -⟩ :=
      (hreads "max-iterations" 0 (by decide)).same "maxIterations" hbound hcountable
    rw [hanswer, hitem]
    rfl
  · have hwraps : ∃ n ∈ (Request.read (.value (2 ^ 64 - 1))).positions, 2 ^ 63 ≤ n :=
      ⟨2 ^ 64 - 1, by simp [Request.positions], by decide⟩
    exact ((hreads "max-iterations" (2 ^ 64 - 1) (by decide)).wraps hwraps).1

end EffectiveParameters

end MethodSynthesis
