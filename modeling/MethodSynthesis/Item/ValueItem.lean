import MethodSynthesis.Item.Validation

/-!
# Items that hold values

The slots of an item start with the same value: the selected choice, or else the default, or else
null. A write is checked completely before it takes effect.
-/

namespace MethodSynthesis

/-- An item with slots; the choices are kept in their stored form. -/
structure ValueItem where
  definition : ItemDefinition
  choices : List Value
  values : List Value
  enabled : Bool
  deriving DecidableEq

namespace ValueItem

def choiceAt (d : ItemDefinition) (choices : List Value) (choice : Nat) : Except ItemError Value :=
  match choices[choice]? with
  | some value => .ok value
  | none => .error (.choiceOutOfRange d.name choice choices.length)

def initialValue (d : ItemDefinition) (choices : List Value) : Except ItemError Value :=
  match d.defaultDiscreteIndex, d.default with
  | some choice, _ => choiceAt d choices choice
  | none, some value => d.coerce value
  | none, none => .ok .null

def ofDefinition (d : ItemDefinition) : Except ItemError ValueItem := do
  if !d.type.isValueBearing then throw (.noValues d.name d.type)
  let choices ← d.discrete.mapM fun choice => d.coerce choice.value
  let initial ← initialValue d choices
  return ⟨d, choices, List.replicate d.numberOfValues initial, d.enabledByDefault⟩

def numberOfValues (item : ValueItem) : Nat := item.values.length

def value (item : ValueItem) (slot : Nat) : Except ItemError Value :=
  match item.values[slot]? with
  | some value => .ok value
  | none => .error (.slotOutOfRange item.definition.name slot item.values.length)

def checkSlot (item : ValueItem) (slot : Nat) : Except ItemError Unit :=
  if slot < item.values.length then .ok ()
  else .error (.slotOutOfRange item.definition.name slot item.values.length)

/-- A discrete item takes its choices and null only. -/
def checkChoice (item : ValueItem) (stored : Value) : Except ItemError Unit :=
  if item.choices.isEmpty || stored.isNull || item.choices.any stored.equals then .ok ()
  else .error (.notAChoice item.definition.name stored)

/-- What a write of a value stores, or the first objection to it. -/
def admit? (item : ValueItem) (v : Value) : Except ItemError Value := do
  let stored ← item.definition.coerce v
  item.definition.checkRange stored
  item.checkChoice stored
  return stored

def withValue (item : ValueItem) (slot : Nat) (stored : Value) : ValueItem :=
  { item with values := item.values.set slot stored }

def setValue (item : ValueItem) (slot : Nat) (v : Value) : Except ItemError ValueItem := do
  item.checkSlot slot
  let stored ← item.admit? v
  return item.withValue slot stored

/-! ## Choices -/

def numberOfChoices (item : ValueItem) : Nat := item.choices.length

def choiceLabel? (item : ValueItem) (choice : Nat) : Option String :=
  item.definition.discrete[choice]?.map DiscreteChoice.label

def choiceOf? (item : ValueItem) (stored : Value) : Option Nat :=
  if stored.isNull then none else item.choices.findIdx? fun choice => choice.equals stored

def discreteIndex (item : ValueItem) (slot : Nat) : Except ItemError (Option Nat) := do
  let stored ← item.value slot
  return item.choiceOf? stored

/-- Stores a choice; bounds do not apply to choices. -/
def setDiscreteIndex (item : ValueItem) (slot choice : Nat) : Except ItemError ValueItem := do
  item.checkSlot slot
  let stored ← choiceAt item.definition item.choices choice
  return item.withValue slot stored

end ValueItem

end MethodSynthesis
