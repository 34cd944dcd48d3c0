import MethodSynthesis.Item.Capability
import MethodSynthesis.Item.ValueItem

/-!
# Items

An item holds values or is a mere switch. Each facet is reached through the item, and an item that
lacks the facet says so.
-/

namespace MethodSynthesis

/-- An item without values; only its enabled flag changes. -/
structure SwitchItem where
  definition : ItemDefinition
  enabled : Bool
  deriving DecidableEq

def SwitchItem.ofDefinition (d : ItemDefinition) : SwitchItem := ⟨d, d.enabledByDefault⟩

inductive Item where
  | value (item : ValueItem)
  | switch (item : SwitchItem)
  deriving DecidableEq

inductive FacetError where
  | absent (capability : Capability)
  | refused (error : ItemError)
  deriving DecidableEq

namespace Item

def ofDefinition (d : ItemDefinition) : Except ItemError Item :=
  if d.type.isValueBearing then (ValueItem.ofDefinition d).map .value
  else .ok (.switch (.ofDefinition d))

def definition : Item → ItemDefinition
  | .value item => item.definition
  | .switch item => item.definition

def name (item : Item) : String := item.definition.name

def enabled : Item → Bool
  | .value item => item.enabled
  | .switch item => item.enabled

/-! ## Facets -/

def valueFacet? : Item → Option ValueItem
  | .value item => some item
  | .switch _ => none

def hasOptional (item : Item) : Bool := item.definition.optional

def discreteFacet? : Item → Option ValueItem
  | .value item => if item.choices.isEmpty then none else some item
  | .switch _ => none

def capabilities (item : Item) : Capabilities :=
  ⟨item.valueFacet?.isSome, item.hasOptional, item.discreteFacet?.isSome⟩

def liftError : Except ItemError α → Except FacetError α
  | .ok a => .ok a
  | .error e => .error (.refused e)

def withValueFacet (item : Item) (f : ValueItem → Except ItemError α) : Except FacetError α :=
  match item.valueFacet? with
  | some item => liftError (f item)
  | none => .error (.absent .value)

def withDiscreteFacet (item : Item) (f : ValueItem → Except ItemError α) : Except FacetError α :=
  match item.discreteFacet? with
  | some item => liftError (f item)
  | none => .error (.absent .discrete)

/-! ## Reading -/

def numberOfValues (item : Item) : Except FacetError Nat :=
  item.withValueFacet fun item => .ok item.numberOfValues

def getValue (item : Item) (slot : Nat) : Except FacetError Value :=
  item.withValueFacet fun item => item.value slot

def isEnabled (item : Item) : Except FacetError Bool :=
  if item.hasOptional then .ok item.enabled else .error (.absent .optional)

def numberOfChoices (item : Item) : Except FacetError Nat :=
  item.withDiscreteFacet fun item => .ok item.numberOfChoices

def choiceLabel? (item : Item) (choice : Nat) : Except FacetError (Option String) :=
  item.withDiscreteFacet fun item => .ok (item.choiceLabel? choice)

def discreteIndex (item : Item) (slot : Nat) : Except FacetError (Option Nat) :=
  item.withDiscreteFacet fun item => item.discreteIndex slot

end Item

/-! ## Reads and writes as data -/

inductive ItemRead where
  | value (slot : Nat)
  | enabled
  | choice (slot : Nat)
  deriving DecidableEq

inductive ItemWrite where
  | value (slot : Nat) (value : Value)
  | enabled (enabled : Bool)
  | choice (slot choice : Nat)
  deriving DecidableEq

namespace Item

/-- The answer to a question; a choice is answered by its position, no choice by null. -/
def read (item : Item) : ItemRead → Except FacetError Value
  | .value slot => item.getValue slot
  | .enabled => item.isEnabled.map .bool
  | .choice slot => (item.discreteIndex slot).map fun choice => (choice.map .ofIndex).getD .null

def withEnabled (enabled : Bool) : Item → Item
  | .value item => .value { item with enabled }
  | .switch item => .switch { item with enabled }

/-- The item behind a write, or the reason why nothing is written. -/
def write (item : Item) : ItemWrite → Except FacetError Item
  | .value slot v => (item.withValueFacet fun item => item.setValue slot v).map .value
  | .enabled enabled =>
      if item.hasOptional then .ok (item.withEnabled enabled) else .error (.absent .optional)
  | .choice slot choice =>
      (item.withDiscreteFacet fun item => item.setDiscreteIndex slot choice).map .value

/-- The item behind a run of writes; a write that fails changes nothing. -/
def writeAll (item : Item) (writes : List ItemWrite) : Item :=
  writes.foldl (fun item w => (item.write w).toOption.getD item) item

end Item

end MethodSynthesis
