import MethodSynthesis.Naming.MethodNames

/-!
# Lengths of method names

Under the default verbs the six methods of a name have six different lengths, whatever the name, so
that no item hides one of its own methods.
-/

namespace MethodSynthesis

/-- How much longer a method of the kind is than the one that reads the value. -/
def MethodKind.margin : MethodKind → Nat
  | .setValue => 3
  | .value => 0
  | .enable => 6
  | .isEnabled => 7
  | .setDiscreteIndex => 8
  | .discreteIndex => 5

theorem MethodKind.margin_injective {kind other : MethodKind} (h : kind.margin = other.margin) :
    kind = other := by
  cases kind <;> cases other <;> first | rfl | cases h

namespace MethodNames

theorem length_pascal (names : MethodNames) : names.pascal.length = names.camel.length := by
  simp [pascal, camel, tokens]

theorem length_method (names : MethodNames) (kind : MethodKind) :
    (names.method kind {}).length = names.camel.length + kind.margin := by
  have hpascal := names.length_pascal
  have hset : "set".length = 3 := rfl
  have henable : "enable".length = 6 := rfl
  have hindex : "Index".length = 5 := rfl
  have henabled : "Enabled".length = 7 := rfl
  cases kind <;> simp only [method, String.length_append, MethodKind.margin] <;> omega

theorem method_injective {names : MethodNames} {kind other : MethodKind}
    (h : names.method kind {} = names.method other {}) : kind = other := by
  have hlength := congrArg String.length h
  rw [length_method, length_method] at hlength
  exact MethodKind.margin_injective (Nat.add_left_cancel hlength)

end MethodNames

end MethodSynthesis
