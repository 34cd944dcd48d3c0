/-!
# Capabilities

The facets that an item may expose, each with its own operations.
-/

namespace MethodSynthesis

inductive Capability where
  | value
  | optional
  | discrete
  deriving DecidableEq

namespace Capability

def all : List Capability := [.value, .optional, .discrete]

def name : Capability → String
  | .value => "value"
  | .optional => "optional"
  | .discrete => "discrete"

end Capability

structure Capabilities where
  value : Bool
  optional : Bool
  discrete : Bool
  deriving DecidableEq

namespace Capabilities

def has (c : Capabilities) : Capability → Bool
  | .value => c.value
  | .optional => c.optional
  | .discrete => c.discrete

def isEmpty (c : Capabilities) : Bool := !(c.value || c.optional || c.discrete)

theorem isEmpty_iff (c : Capabilities) :
    c.isEmpty = true ↔ ∀ capability, c.has capability = false := by
  constructor
  · intro h capability
    cases capability <;> simp_all [isEmpty, has]
  · intro h
    simp [isEmpty, show c.value = false from h .value, show c.optional = false from h .optional,
      show c.discrete = false from h .discrete]

end Capabilities

end MethodSynthesis
