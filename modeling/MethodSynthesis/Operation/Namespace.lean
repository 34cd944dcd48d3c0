import MethodSynthesis.Operation.Basic
import MethodSynthesis.Operation.Hierarchy

/-!
# Namespaces

A namespace names types, values and nested namespaces, one member of each name, in the order of the
names.
-/

namespace MethodSynthesis

/-- How operations of a type are made, given by what making one yields. -/
structure OperationFactory where
  outcome : Except OperationError Operation

structure TypeInfo where
  name : String
  bases : List String := []
  factory : Option OperationFactory := none

inductive MemberValue where
  | type (info : TypeInfo)
  | value (value : Value)
  | nested (fullName : String)

namespace MemberValue

def type? : MemberValue → Option TypeInfo
  | .type info => some info
  | _ => none

def isNamespace : MemberValue → Bool
  | .nested _ => true
  | _ => false

end MemberValue

structure NamespaceMember where
  name : String
  value : MemberValue

structure Namespace where
  name : String
  table : Table String MemberValue := {}

namespace Namespace

/-- Puts a member into its place; a member of the same name is replaced. -/
def insert (n : Namespace) (name : String) (value : MemberValue) : Namespace :=
  { n with table := n.table.insert name value }

def withType (n : Namespace) (info : TypeInfo) : Namespace := n.insert info.name (.type info)

/-- Adds a nested namespace; its full name starts with the name of the outer one. -/
def withNamespace (n : Namespace) (name : String) : Namespace :=
  n.insert name (.nested (n.name ++ "." ++ name))

def get? (n : Namespace) (name : String) : Option MemberValue := n.table.get? name

def members (n : Namespace) : List NamespaceMember :=
  n.table.entries.map fun entry => ⟨entry.1, entry.2⟩

def size (n : Namespace) : Nat := n.table.size

def isEmpty (n : Namespace) : Bool := n.table.isEmpty

theorem get?_insert (n : Namespace) (name other : String) (value : MemberValue) :
    (n.insert name value).get? other = if other = name then some value else n.get? other := by
  simp [get?, insert, Table.get?_insert]

@[simp] theorem name_insert (n : Namespace) (name : String) (value : MemberValue) :
    (n.insert name value).name = n.name := rfl

end Namespace

end MethodSynthesis
