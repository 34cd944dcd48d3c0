import MethodSynthesis.Operation.Namespace

/-!
# Bulk import

Members are registered when they are types below a base type, and skipped for a reason otherwise.
The types among the members are declared before any member is classified, so members may derive from
each other in any order.
-/

namespace MethodSynthesis

/-- The type below which operations are found unless another one is given. -/
def operationBaseType : String := "Operation"

inductive SkipReason where
  | notAType
  | notAnOperation
  | nestedNamespace
  deriving DecidableEq

namespace SkipReason

def all : List SkipReason := [.notAType, .notAnOperation, .nestedNamespace]

def message : SkipReason → String
  | .notAType => "member is not a type"
  | .notAnOperation => "type is not an operation"
  | .nestedNamespace => "nested namespaces are not scanned"

end SkipReason

/-- The names of the registered members and the skipped ones, both in scan order. -/
structure ImportSummary where
  registered : List String := []
  skipped : List (String × SkipReason) := []
  deriving DecidableEq

def ImportSummary.skipReason? (summary : ImportSummary) (member : String) : Option SkipReason :=
  (summary.skipped.find? fun skipped => skipped.1 = member).map Prod.snd

namespace TypeHierarchy

/-- The type of an operation, or the reason why a member is none. -/
def classify (h : TypeHierarchy) (baseType : String) : MemberValue → Except SkipReason TypeInfo
  | .nested _ => .error .nestedNamespace
  | .value _ => .error .notAType
  | .type info => if h.isSubtype info.name baseType then .ok info else .error .notAnOperation

def declareType (h : TypeHierarchy) (info : TypeInfo) : TypeHierarchy :=
  h.declare info.name info.bases

def declareMembers (h : TypeHierarchy) (members : List NamespaceMember) : TypeHierarchy :=
  (members.filterMap fun member => member.value.type?).foldl declareType h

end TypeHierarchy

/-- The member names and types that an import registers, in scan order. -/
def acceptedMembers (h : TypeHierarchy) (baseType : String) (members : List NamespaceMember) :
    List (String × TypeInfo) :=
  members.filterMap fun member =>
    match h.classify baseType member.value with
    | .ok info => some (member.name, info)
    | .error _ => none

def skippedMembers (h : TypeHierarchy) (baseType : String) (members : List NamespaceMember) :
    List (String × SkipReason) :=
  members.filterMap fun member =>
    match h.classify baseType member.value with
    | .ok _ => none
    | .error reason => some (member.name, reason)

def summarizeImport (h : TypeHierarchy) (baseType : String) (members : List NamespaceMember) :
    ImportSummary :=
  ⟨(acceptedMembers h baseType members).map Prod.fst, skippedMembers h baseType members⟩

end MethodSynthesis
