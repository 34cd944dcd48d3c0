import MethodSynthesis.Proofs.CallLocality

/-!
# What a call answers

A call that reaches its item answers what the item answers to the request, and leaves the container
behind the request. Of the container it sees the bound item alone.
-/

namespace MethodSynthesis

/-! ## Requests to an item -/

/-- The answer of an item to a request; a write that is made is answered by null. -/
def Item.answer (item : Item) : Request → Except FacetError Value
  | .read r => item.read r
  | .write w => (item.write w).map fun _ => .null

def Parameters.afterRequest (p : Parameters) (name : String) : Request → Parameters
  | .read _ => p
  | .write w => p.writeItem name w

namespace Parameters

variable {p q : Parameters} {name : String} {item : Item}

theorem writeItem_of_ok {after : Item} {w : ItemWrite} (hfind : p.find? name = some item)
    (hwrite : item.write w = .ok after) : p.writeItem name w = p.update name after := by
  simp only [writeItem, hfind, hwrite]

theorem writeItem_of_error {e : FacetError} {w : ItemWrite} (hfind : p.find? name = some item)
    (hwrite : item.write w = .error e) : p.writeItem name w = p := by
  simp only [writeItem, hfind, hwrite]

theorem afterRequest_of_error {e : FacetError} {request : Request}
    (hfind : p.find? name = some item) (hanswer : item.answer request = .error e) :
    p.afterRequest name request = p := by
  cases request with
  | read r => rfl
  | write w => exact writeItem_of_error hfind (Outcomes.map_eq_error_iff.mp hanswer)

theorem afterRequest_of_missing (hfind : p.find? name = none) (request : Request) :
    p.afterRequest name request = p := by
  cases request with
  | read r => rfl
  | write w => simp only [afterRequest, writeItem, hfind]

theorem find?_update_of_ne {replacement : Item} {other : String} (hfind : p.find? name = some item)
    (hname : replacement.name = name) (hne : other ≠ name) :
    (p.update name replacement).find? other = p.find? other := by
  obtain ⟨before, after, hitems, hitem, hbefore⟩ := find?_eq_some_iff.mp hfind
  have hupdated := items_update_of_split hitems hitem hbefore replacement
  have hold : item.name ≠ other := fun heq => hne (heq.symm.trans hitem)
  have hnew : replacement.name ≠ other := fun heq => hne (heq.symm.trans hname)
  rw [find?, find?, hupdated, hitems, List.find?_append, List.find?_append]
  simp [hold, hnew]

end Parameters

/-! ## Invocations -/

namespace Binding

variable {binding : Binding} {method : String} {p q : Parameters} {arguments : List Value}
  {item : Item} {request : Request}

theorem serve_eq (hfind : p.find? binding.item = some item) (request : Request) :
    binding.serve p item request =
      ((item.answer request).mapError binding.facetError,
        p.afterRequest binding.item request) := by
  cases request with
  | read r =>
      cases hread : item.read r <;>
        simp only [serve, Item.answer, Parameters.afterRequest, hread] <;> rfl
  | write w =>
      cases hwrite : item.write w with
      | ok after =>
          have hafter := Parameters.writeItem_of_ok hfind hwrite
          simp only [serve, Item.answer, Parameters.afterRequest, hwrite, hafter]
          rfl
      | error e =>
          have hafter := Parameters.writeItem_of_error hfind hwrite
          simp only [serve, Item.answer, Parameters.afterRequest, hwrite, hafter]
          rfl

theorem invoke_of_request (hfind : p.find? binding.item = some item)
    (hrequest : Request.ofArguments binding.kind method arguments = .ok request) :
    binding.invoke method p arguments =
      ((item.answer request).mapError binding.facetError,
        p.afterRequest binding.item request) := by
  simp only [invoke, hfind, hrequest, serve_eq hfind]

theorem invoke_of_missing (hfind : p.find? binding.item = none) :
    binding.invoke method p arguments = (.error (.itemNotFound binding.item), p) := by
  simp only [invoke, hfind]

theorem invoke_of_unfit {e : SynthesisError} (hfind : p.find? binding.item = some item)
    (hrequest : Request.ofArguments binding.kind method arguments = .error e) :
    binding.invoke method p arguments = (.error e, p) := by
  simp only [invoke, hfind, hrequest]

theorem invoke_answer_congr (hfind : q.find? binding.item = p.find? binding.item) :
    (binding.invoke method q arguments).1 = (binding.invoke method p arguments).1 := by
  cases hitem : p.find? binding.item with
  | none => rw [invoke_of_missing hitem, invoke_of_missing (hfind.trans hitem)]
  | some item =>
      cases hrequest : Request.ofArguments binding.kind method arguments with
      | error e =>
          rw [invoke_of_unfit hitem hrequest, invoke_of_unfit (hfind.trans hitem) hrequest]
      | ok request =>
          rw [invoke_of_request hitem hrequest, invoke_of_request (hfind.trans hitem) hrequest]

theorem invoke_elsewhere (binding : Binding) (method : String) (p : Parameters)
    (arguments : List Value) {position : Nat} (h : p.position? binding.item ≠ some position) :
    (binding.invoke method p arguments).2.items[position]? = p.items[position]? := by
  have hends := binding.ends_invoke method p arguments
  generalize binding.invoke method p arguments = outcome at hends ⊢
  cases hends with
  | missing => rfl
  | unfit => rfl
  | unread => rfl
  | unwritten => rfl
  | read => rfl
  | written hfind hmakes hwrite =>
      have hdiffers : p.DiffersAt binding.item (fun _ _ => True) _ :=
        Parameters.differsAt_update hfind hwrite trivial
      exact hdiffers.elsewhere position h

theorem invoke_ne_unknown (binding : Binding) (method : String) (p : Parameters)
    (arguments : List Value) (name : String) :
    (binding.invoke method p arguments).1 ≠ .error (.unknownMethod name) := by
  have hends := binding.ends_invoke method p arguments
  generalize binding.invoke method p arguments = outcome at hends ⊢
  cases hends with
  | missing => simp
  | unfit hrequest =>
      have hrefuses := Request.refuses_of_ofArguments hrequest
      cases hrefuses <;> simp
  | unread hfind hmakes hread =>
      rename_i fault
      cases fault <;> simp [facetError]
  | unwritten hfind hmakes hwrite =>
      rename_i fault
      cases fault <;> simp [facetError]
  | read => simp
  | written => simp

theorem invoke_eq_ok_iff {answer : Value} :
    binding.invoke method p arguments = (.ok answer, q) ↔
      ∃ item request, p.find? binding.item = some item ∧
        Request.ofArguments binding.kind method arguments = .ok request ∧
        item.answer request = .ok answer ∧ q = p.afterRequest binding.item request := by
  constructor
  · intro hinvoke
    cases hitem : p.find? binding.item with
    | none =>
        rw [invoke_of_missing hitem] at hinvoke
        cases hinvoke
    | some item =>
        cases hrequest : Request.ofArguments binding.kind method arguments with
        | error e =>
            rw [invoke_of_unfit hitem hrequest] at hinvoke
            cases hinvoke
        | ok request =>
            rw [invoke_of_request hitem hrequest] at hinvoke
            obtain ⟨hanswer, hafter⟩ := Prod.mk.inj hinvoke
            exact ⟨item, request, rfl, rfl, Outcomes.mapError_eq_ok_iff.mp hanswer, hafter.symm⟩
  · intro ⟨item, request, hitem, hrequest, hanswer, hafter⟩
    rw [invoke_of_request hitem hrequest, hanswer, hafter]
    rfl

end Binding

/-! ## Calls -/

namespace EffectiveParameters

variable {api : EffectiveParameters} {method : String} {binding : Binding}

theorem call_of_bound (hget : api.methods.get? method = some binding) (arguments : List Value) :
    api.call method arguments =
      ((binding.invoke method api.parameters arguments).1,
        { api with parameters := (binding.invoke method api.parameters arguments).2 }) := by
  simp only [call, hget]

/-- A call sees no more of what it is made of than the table and the container. -/
theorem call_withParameters_of_bound (hget : api.methods.get? method = some binding)
    (q : Parameters) (arguments : List Value) :
    ({ api with parameters := q } : EffectiveParameters).call method arguments =
      ((binding.invoke method q arguments).1,
        { api with parameters := (binding.invoke method q arguments).2 }) := by
  simp only [call, hget]

end EffectiveParameters

end MethodSynthesis
