import MethodSynthesis.Parameters.Basic
import MethodSynthesis.Synthesis.MethodTable

/-!
# Synthesis of method tables

Items are visited by position. An item without facets is passed over whatever its name; any other
gets the methods of its facets, in the order value, optional, discrete, the writing method first.
-/

namespace MethodSynthesis

/-- The kinds of methods that an item gets, in the order in which they are bound. -/
def Item.methodKinds (item : Item) : List MethodKind :=
  (Capability.all.filter item.capabilities.has).flatMap MethodKind.ofCapability

namespace MethodTable

def bindItem (options : SynthesisOptions) (table : MethodTable) (item : Item) :
    Except SynthesisError MethodTable :=
  if item.capabilities.isEmpty then .ok table
  else
    match MethodNames.derive? item.name with
    | none => .error (.emptyMethodName item.name)
    | some names =>
        item.methodKinds.foldlM (fun table kind =>
          bind options.collision table (names.method kind options.verbs) ⟨item.name, kind⟩) table

end MethodTable

def Parameters.synthesize (p : Parameters) (options : SynthesisOptions) :
    Except SynthesisError MethodTable :=
  p.items.foldlM (MethodTable.bindItem options) Table.empty

end MethodSynthesis
