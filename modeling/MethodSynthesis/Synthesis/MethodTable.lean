import MethodSynthesis.Synthesis.Error
import MethodSynthesis.Synthesis.Options
import MethodSynthesis.Table.Basic

/-!
# Method tables

A method is bound to the name of an item and to what it does with the item, so the item is looked
up at every call.
-/

namespace MethodSynthesis

structure Binding where
  item : String
  kind : MethodKind
  deriving DecidableEq

abbrev MethodTable := Table String Binding

namespace MethodTable

def methodFor? (table : MethodTable) (item : String) (kind : MethodKind) : Option String :=
  (table.entries.find? fun entry => entry.2 = ⟨item, kind⟩).map Prod.fst

/-- Binds a method. A method of another item is replaced or defended, as the policy says; a method
of the same item is replaced. -/
def bind (policy : CollisionPolicy) (table : MethodTable) (method : String) (binding : Binding) :
    Except SynthesisError MethodTable :=
  match table.get? method with
  | none => .ok (table.insert method binding)
  | some existing =>
      if policy = .failFast ∧ existing.item ≠ binding.item then
        .error (.nameCollision method existing.item binding.item)
      else .ok (table.insert method binding)

end MethodTable

end MethodSynthesis
