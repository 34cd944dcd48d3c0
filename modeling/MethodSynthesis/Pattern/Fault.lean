/-!
# Faults of patterns
-/

namespace MethodSynthesis

inductive PatternFault where
  | tooDeep
  | tooLarge
  | unclosedGroup
  | unopenedGroup
  | lookAround
  | unclosedName
  | emptyName
  | invalidName
  | repeatedName
  | unclosedFlags
  | emptyFlags
  | unknownFlag
  | repeatedFlag
  | repeatedNegation
  | danglingNegation
  | unclosedEscape
  | unknownEscape
  | backReference
  | unicodeClass
  | unclosedCode
  | invalidCode
  | unclosedEdge
  | unknownEdge
  | nothingRepeated
  | unclosedCount
  | missingCount
  | invalidCount
  | invertedCount
  | unclosedSet
  | nestedSet
  | setOperation
  | invalidSetItem
  | invertedRange
  deriving DecidableEq

namespace PatternFault

def message : PatternFault → String
  | .tooDeep => "pattern has too much nesting"
  | .tooLarge => "compiled regex exceeded size limit"
  | .unclosedGroup => "found open group without closing ')'"
  | .unopenedGroup => "found closing ')' without matching '('"
  | .lookAround => "look-around is not supported"
  | .unclosedName => "expected end of capture group name, but got end of pattern"
  | .emptyName => "empty capture group names are not allowed"
  | .invalidName => "invalid group name"
  | .repeatedName => "duplicate capture group name"
  | .unclosedFlags => "expected ':' or ')' to end inline flags, but got end of pattern"
  | .emptyFlags => "empty flag directive '(?)' is not allowed"
  | .unknownFlag => "unrecognized inline flag"
  | .repeatedFlag => "duplicate inline flag is not allowed"
  | .repeatedNegation => "inline flag negation cannot be repeated"
  | .danglingNegation => "inline flags cannot end with negation directive"
  | .unclosedEscape => "saw start of escape sequence, but saw end of pattern before it finished"
  | .unknownEscape => "unrecognized escape sequence"
  | .backReference => "backreferences are not supported"
  | .unicodeClass => "Unicode character classes are not supported"
  | .unclosedCode => "expected hexadecimal number, but saw end of pattern first"
  | .invalidCode => "got invalid hexadecimal number"
  | .unclosedEdge => "special word boundary assertion is unclosed or has an invalid character"
  | .unknownEdge => "special word boundary assertion is unrecognized"
  | .nothingRepeated => "repetition operator must be applied to a sub-expression"
  | .unclosedCount => "found unclosed counted repetition operator"
  | .missingCount => "expected decimal number, but found no digits"
  | .invalidCount => "got invalid decimal number"
  | .invertedCount => "found counted repetition with a min bigger than its max"
  | .unclosedSet => "found unclosed character class"
  | .nestedSet => "nested character classes are not supported"
  | .setOperation => "character class set operations are not supported"
  | .invalidSetItem => "invalid character class item"
  | .invertedRange => "invalid character class range"

end PatternFault

end MethodSynthesis
