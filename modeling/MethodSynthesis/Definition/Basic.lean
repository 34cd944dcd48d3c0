import MethodSynthesis.Parameters.Basic

/-!
# Definitions

A definition names a container and declares its items in order.
-/

namespace MethodSynthesis

structure Definition where
  name : String
  items : List ItemDefinition := []
  deriving DecidableEq

namespace Definition

def item? (d : Definition) (name : String) : Option ItemDefinition :=
  d.items.find? fun item => item.name = name

/-- The first name that stands behind an equal one. -/
def repeatedName? : List String → List String → Option String
  | _, [] => none
  | seen, name :: names => if name ∈ seen then some name else repeatedName? (name :: seen) names

def checkNames (d : Definition) : Except ItemError Unit :=
  match repeatedName? [] (d.items.map ItemDefinition.name) with
  | none => .ok ()
  | some name => .error (.duplicateName d.name name)

/-- Builds the items in order and adds them to a new container; repeated names are reported before
any fault of an item. -/
def createParameters (d : Definition) : Except ItemError Parameters := do
  d.checkNames
  d.items.foldlM (fun parameters definition => do
    let item ← Item.ofDefinition definition
    parameters.addItem item) (Parameters.new d.name)

end Definition

end MethodSynthesis
