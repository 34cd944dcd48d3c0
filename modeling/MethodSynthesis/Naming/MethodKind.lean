import MethodSynthesis.Item.Capability

/-!
# Kinds of methods

Each facet has two methods, one that writes and one that reads.
-/

namespace MethodSynthesis

inductive MethodKind where
  | setValue
  | value
  | enable
  | isEnabled
  | setDiscreteIndex
  | discreteIndex
  deriving DecidableEq

namespace MethodKind

def all : List MethodKind :=
  [.setValue, .value, .enable, .isEnabled, .setDiscreteIndex, .discreteIndex]

/-- The methods of a facet, the writing one first. -/
def ofCapability : Capability → List MethodKind
  | .value => [.setValue, .value]
  | .optional => [.enable, .isEnabled]
  | .discrete => [.setDiscreteIndex, .discreteIndex]

def capability : MethodKind → Capability
  | .setValue | .value => .value
  | .enable | .isEnabled => .optional
  | .setDiscreteIndex | .discreteIndex => .discrete

def name : MethodKind → String
  | .setValue => "set value"
  | .value => "value"
  | .enable => "enable"
  | .isEnabled => "is enabled"
  | .setDiscreteIndex => "set discrete index"
  | .discreteIndex => "discrete index"

def signature : MethodKind → String
  | .setValue => "(value) or (index, value)"
  | .value => "() or (index)"
  | .enable => "(enabled)"
  | .isEnabled => "()"
  | .setDiscreteIndex => "(index, choice)"
  | .discreteIndex => "(index)"

theorem mem_ofCapability (kind : MethodKind) (capability : Capability) :
    kind ∈ ofCapability capability ↔ kind.capability = capability := by
  cases kind <;> cases capability <;> decide

end MethodKind

end MethodSynthesis
