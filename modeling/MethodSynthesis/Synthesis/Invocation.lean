import MethodSynthesis.Synthesis.Basic

/-!
# Invocation of a binding

The item is looked up first, then the arguments are read, then the facet is asked. A call that fails
at any of these leaves the container as it was.
-/

namespace MethodSynthesis

/-- What the arguments of a call ask of an item. -/
inductive Request where
  | read (read : ItemRead)
  | write (write : ItemWrite)
  deriving DecidableEq

namespace Request

def readIndex (method : String) (position : Nat) (argument : Value) : Except SynthesisError Nat :=
  match argument.index? with
  | some index => .ok index
  | none => .error (.argumentType method position .index argument)

def readFlag (method : String) (position : Nat) (argument : Value) : Except SynthesisError Bool :=
  match argument.bool? with
  | some flag => .ok flag
  | none => .error (.argumentType method position .flag argument)

/-- Reads the arguments of a method; slots are left out for the first one. -/
def ofArguments (kind : MethodKind) (method : String) (arguments : List Value) :
    Except SynthesisError Request :=
  match kind, arguments with
  | .setValue, [value] => .ok (.write (.value 0 value))
  | .setValue, [slot, value] => do
      let slot ← readIndex method 0 slot
      return .write (.value slot value)
  | .value, [] => .ok (.read (.value 0))
  | .value, [slot] => do
      let slot ← readIndex method 0 slot
      return .read (.value slot)
  | .enable, [enabled] => do
      let enabled ← readFlag method 0 enabled
      return .write (.enabled enabled)
  | .isEnabled, [] => .ok (.read .enabled)
  | .setDiscreteIndex, [slot, choice] => do
      let slot ← readIndex method 0 slot
      let choice ← readIndex method 1 choice
      return .write (.choice slot choice)
  | .discreteIndex, [slot] => do
      let slot ← readIndex method 0 slot
      return .read (.choice slot)
  | kind, arguments => .error (.arity method kind arguments.length)

end Request

namespace Binding

def facetError (binding : Binding) : FacetError → SynthesisError
  | .absent capability => .missingCapability binding.item capability
  | .refused error => .refused error

/-- The answer to a request and the container behind it; writes are answered by null. -/
def serve (binding : Binding) (p : Parameters) (item : Item) :
    Request → Except SynthesisError Value × Parameters
  | .read r =>
      match item.read r with
      | .ok value => (.ok value, p)
      | .error e => (.error (binding.facetError e), p)
  | .write w =>
      match item.write w with
      | .ok item => (.ok .null, p.update binding.item item)
      | .error e => (.error (binding.facetError e), p)

def invoke (binding : Binding) (method : String) (p : Parameters) (arguments : List Value) :
    Except SynthesisError Value × Parameters :=
  match p.find? binding.item with
  | none => (.error (.itemNotFound binding.item), p)
  | some item =>
      match Request.ofArguments binding.kind method arguments with
      | .error e => (.error e, p)
      | .ok request => binding.serve p item request

end Binding

end MethodSynthesis
