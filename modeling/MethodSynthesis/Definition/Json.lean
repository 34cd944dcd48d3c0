import MethodSynthesis.Definition.Basic
import MethodSynthesis.Value.Json

/-!
# Definitions in JSON

A record is read from an object, whose unknown members are skipped and whose known members may stand
only once, or from an array of its fields in order, where fields at the end may be missing. Writing
leaves out what has its default, but for the first five fields of an item.
-/

namespace MethodSynthesis

namespace Json

/-- The value of a key; an error when the key stands twice. -/
def memberValue? (members : List (Option String × Json)) (key : String) : Option (Option Json) :=
  match members.filter fun member => member.1 = some key with
  | [] => some none
  | [(_, value)] => some (some value)
  | _ => none

/-- The fields of a record in the order of their keys, absent ones as none. -/
def fields? (keys : List String) : Json → Option (List (Option Json))
  | .object members =>
      if members.all fun member => member.1.isSome then keys.mapM (memberValue? members) else none
  | .array elements =>
      if elements.length ≤ keys.length then
        some (elements.map some ++ List.replicate (keys.length - elements.length) none)
      else none
  | _ => none

def text? : Json → Option String
  | .string text => text
  | _ => none

def bool? : Json → Option Bool
  | .bool b => some b
  | _ => none

def index? : Json → Option Nat
  | .number literal => literal.index?
  | _ => none

/-- A field that may be null, which means absent. -/
def nullable (read : Json → Option α) : Json → Option (Option α)
  | .null => some none
  | document => (read document).map some

def fieldOr (default : α) (read : Json → Option α) : Option Json → Option α
  | none => some default
  | some document => read document

def list? (read : Json → Option α) : Json → Option (List α)
  | .array elements => elements.mapM read
  | _ => none

end Json

namespace ItemType

/-- The keyword, or an object with the keyword as its only key and null as its value. -/
def ofJson? : Json → Option ItemType
  | .string text => text.bind ofKeyword?
  | .object [(key, .null)] => key.bind ofKeyword?
  | _ => none

def toJson (type : ItemType) : Json := .string (some type.keyword)

end ItemType

namespace DiscreteChoice

def keys : List String := ["label", "value"]

def ofJson? (document : Json) : Option DiscreteChoice := do
  match ← document.fields? keys with
  | [some label, some value] => return ⟨← label.text?, ← Value.ofJson? value⟩
  | _ => none

def toJson (choice : DiscreteChoice) : Json :=
  .object [(some "label", .string (some choice.label)), (some "value", choice.value.toJson)]

end DiscreteChoice

namespace ItemDefinition

def keys : List String :=
  ["name", "type", "number_of_values", "optional", "enabled_by_default", "default", "min", "max",
    "discrete", "default_discrete_index"]

def ofJson? (document : Json) : Option ItemDefinition := do
  match ← document.fields? keys with
  | [some name, some type, numberOfValues, optional, enabledByDefault, default, min, max, discrete,
      defaultDiscreteIndex] =>
      return {
        name := ← name.text?
        type := ← ItemType.ofJson? type
        numberOfValues := ← Json.fieldOr 1 Json.index? numberOfValues
        optional := ← Json.fieldOr false Json.bool? optional
        enabledByDefault := ← Json.fieldOr false Json.bool? enabledByDefault
        default := ← Json.fieldOr none (Json.nullable Value.ofJson?) default
        min := ← Json.fieldOr none (Json.nullable Value.ofJson?) min
        max := ← Json.fieldOr none (Json.nullable Value.ofJson?) max
        discrete := ← Json.fieldOr [] (Json.list? DiscreteChoice.ofJson?) discrete
        defaultDiscreteIndex :=
          ← Json.fieldOr none (Json.nullable Json.index?) defaultDiscreteIndex }
  | _ => none

/-- A member that is written only when it is there. -/
def optionalMember (key : String) (value : Option Json) : List (Option String × Json) :=
  match value with
  | some value => [(some key, value)]
  | none => []

def indexJson (n : Nat) : Json := .number (.ofInt n)

def toJson (d : ItemDefinition) : Json :=
  .object (
    [(some "name", .string (some d.name)), (some "type", d.type.toJson),
      (some "number_of_values", indexJson d.numberOfValues), (some "optional", .bool d.optional),
      (some "enabled_by_default", .bool d.enabledByDefault)] ++
    optionalMember "default" (d.default.map Value.toJson) ++
    optionalMember "min" (d.min.map Value.toJson) ++
    optionalMember "max" (d.max.map Value.toJson) ++
    optionalMember "discrete"
      (if d.discrete.isEmpty then none else some (.array (d.discrete.map DiscreteChoice.toJson))) ++
    optionalMember "default_discrete_index" (d.defaultDiscreteIndex.map indexJson))

end ItemDefinition

namespace Definition

def keys : List String := ["name", "items"]

def ofJson? (document : Json) : Option Definition := do
  match ← document.fields? keys with
  | [some name, items] =>
      return {
        name := ← name.text?
        items := ← Json.fieldOr [] (Json.list? ItemDefinition.ofJson?) items }
  | _ => none

def toJson (d : Definition) : Json :=
  .object [(some "name", .string (some d.name)),
    (some "items", .array (d.items.map ItemDefinition.toJson))]

def ofJsonText (text : String) : Except ItemError Definition :=
  match (Json.parse? text).bind ofJson? with
  | none => .error .malformedJson
  | some d => do
      d.checkNames
      return d

def jsonText (d : Definition) : String := d.toJson.pretty

end Definition

end MethodSynthesis
