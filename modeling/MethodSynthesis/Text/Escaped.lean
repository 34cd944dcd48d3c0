import MethodSynthesis.Text.Printable

/-!
# Escaped texts

A text between double quotes in which every character can be seen: what is not printable, or would
be drawn together with the character before it, is shown by its code point.
-/

namespace MethodSynthesis.Text

/-- A code point in lower-case hexadecimal digits between braces. -/
def codePointChars (c : Char) : List Char :=
  '\\' :: 'u' :: '\x7b' :: Nat.toDigits 16 c.toNat ++ ['\x7d']

def escapeChar (c : Char) : List Char :=
  if c.toNat = 0 then ['\\', '0']
  else if c = '\t' then ['\\', 't']
  else if c = '\r' then ['\\', 'r']
  else if c = '\n' then ['\\', 'n']
  else if c = '\\' then ['\\', '\\']
  else if c = '"' then ['\\', '"']
  else if isExtending c || !isPrintable c then codePointChars c
  else [c]

def escaped (text : String) : String :=
  String.ofList ('"' :: text.toList.flatMap escapeChar ++ ['"'])

end MethodSynthesis.Text
