import MethodSynthesis.Naming.MethodNames

/-!
# Options of synthesis
-/

namespace MethodSynthesis

inductive CollisionPolicy where
  | lastWriteWins
  | failFast
  deriving DecidableEq

structure SynthesisOptions where
  collision : CollisionPolicy := .lastWriteWins
  verbs : NamingVerbs := {}
  deriving DecidableEq

def SynthesisOptions.strict : SynthesisOptions := { collision := .failFast }

end MethodSynthesis
