import MethodSynthesis.Pattern.Reader
import MethodSynthesis.Pattern.Search

/-!
# Engines for patterns

What a pattern text means is up to an engine, and nothing is asked of it. The patterns of this
library are the engine that runs where no other one is given.
-/

namespace MethodSynthesis

/-- Takes a pattern text for a test of texts, or tells why it is none. -/
class PatternEngine where
  compile : String → Except String (List Char → Bool)

instance Pattern.engine : PatternEngine where
  compile text :=
    match Pattern.ofText text with
    | .ok pattern => .ok pattern.occursIn
    | .error fault => .error fault.message

end MethodSynthesis
