import MethodSynthesis.Operation.Import

/-!
# The operation registry

The registry binds a namespace and a type name to a factory, if there is one, and knows the
hierarchy of the registered types. What is known about types is never forgotten.
-/

namespace MethodSynthesis

structure OperationKey where
  namespaceName : String
  typeName : String
  deriving DecidableEq

namespace OperationKey

/-- By namespace first, then by type name. -/
instance : Ord OperationKey :=
  ⟨compareLex (compareOn OperationKey.namespaceName) (compareOn OperationKey.typeName)⟩

instance : Std.TransOrd OperationKey :=
  inferInstanceAs (Std.TransCmp
    (compareLex (compareOn OperationKey.namespaceName) (compareOn OperationKey.typeName)))

instance : Std.LawfulEqOrd OperationKey where
  eq_of_compare {a b} h := by
    have h := (compareLex_eq_eq.mp (h :
      compareLex (compareOn OperationKey.namespaceName) (compareOn OperationKey.typeName) a b =
        .eq))
    cases a
    cases b
    simp only [mk.injEq]
    exact ⟨Std.LawfulEqOrd.eq_of_compare h.1, Std.LawfulEqOrd.eq_of_compare h.2⟩

end OperationKey

structure OperationRegistry where
  entries : Table OperationKey (Option OperationFactory) := {}
  types : TypeHierarchy := {}

namespace OperationRegistry

def contains (r : OperationRegistry) (key : OperationKey) : Bool := r.entries.contains key

def keys (r : OperationRegistry) : List OperationKey := r.entries.keys

def size (r : OperationRegistry) : Nat := r.entries.size

def isEmpty (r : OperationRegistry) : Bool := r.entries.isEmpty

def operationsIn (r : OperationRegistry) (namespaceName : String) : List String :=
  (r.keys.filter fun key => key.namespaceName = namespaceName).map OperationKey.typeName

def declareType (r : OperationRegistry) (info : TypeInfo) : OperationRegistry :=
  { r with types := r.types.declareType info }

/-- Registers a name alone; operations of it cannot be made. -/
def register (r : OperationRegistry) (key : OperationKey) : OperationRegistry :=
  { r with entries := r.entries.insert key none }

def registerType (r : OperationRegistry) (key : OperationKey) (info : TypeInfo) :
    OperationRegistry :=
  { entries := r.entries.insert key info.factory, types := r.types.declareType info }

/-- Takes a registration out, and tells whether there was one. -/
def unregister (r : OperationRegistry) (key : OperationKey) : Bool × OperationRegistry :=
  (r.contains key, { r with entries := r.entries.erase key })

def create (r : OperationRegistry) (key : OperationKey) : Except OperationError Operation :=
  match r.entries.get? key with
  | none => .error (.unknownOperation key.namespaceName key.typeName)
  | some none => .error (.notConstructible key.namespaceName key.typeName)
  | some (some factory) => factory.outcome

def importMembers (r : OperationRegistry) (namespaceName : String)
    (members : List NamespaceMember) (baseType : String := operationBaseType) :
    ImportSummary × OperationRegistry :=
  let h := r.types.declareMembers members
  (summarizeImport h baseType members,
    (acceptedMembers h baseType members).foldl
      (fun r (name, info) => r.registerType ⟨namespaceName, name⟩ info) r)

def importNamespace (r : OperationRegistry) (n : Namespace)
    (baseType : String := operationBaseType) : ImportSummary × OperationRegistry :=
  r.importMembers n.name n.members baseType

end OperationRegistry

/-- A registrar that notes registrations in order and knows no types of its own. -/
structure ImportRecorder where
  registrations : List OperationKey := []
  deriving DecidableEq

namespace ImportRecorder

def importMembers (recorder : ImportRecorder) (namespaceName : String)
    (members : List NamespaceMember) (baseType : String := operationBaseType) :
    ImportSummary × ImportRecorder :=
  let h := TypeHierarchy.empty.declareMembers members
  (summarizeImport h baseType members,
    ⟨recorder.registrations ++
      (acceptedMembers h baseType members).map fun (name, _) => ⟨namespaceName, name⟩⟩)

def importNamespace (recorder : ImportRecorder) (n : Namespace)
    (baseType : String := operationBaseType) : ImportSummary × ImportRecorder :=
  recorder.importMembers n.name n.members baseType

end ImportRecorder

end MethodSynthesis
