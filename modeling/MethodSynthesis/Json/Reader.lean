import MethodSynthesis.Json.Basic

/-!
# Reading JSON documents

The whole text must be one document with blanks around its parts. The fuel of the recursive readers
is an upper bound on the nesting of their calls, computed from the length of the text.
-/

namespace MethodSynthesis.Json

def expect? : List Char → List Char → Option (List Char)
  | [], text => some text
  | _ :: _, [] => none
  | w :: word, c :: text => if w = c then expect? word text else none

/-- A value without parts, at the start of a text that has no leading blank. -/
def readScalar? : List Char → Option (Json × List Char)
  | [] => none
  | c :: rest =>
      if c = '"' then (readQuoted? rest).map fun (text, rest) => (.string text, rest)
      else if c = 'n' then (expect? "ull".toList rest).map fun rest => (.null, rest)
      else if c = 't' then (expect? "rue".toList rest).map fun rest => (.bool true, rest)
      else if c = 'f' then (expect? "alse".toList rest).map fun rest => (.bool false, rest)
      else (NumberLiteral.read? (c :: rest)).map fun (literal, rest) => (.number literal, rest)

def readKey? (text : List Char) : Option (Option String × List Char) :=
  match skipBlank text with
  | [] => none
  | c :: rest =>
      if c = '"' then
        match readQuoted? rest with
        | none => none
        | some (key, rest) =>
            match skipBlank rest with
            | [] => none
            | c :: rest => if c = ':' then some (key, rest) else none
      else none

mutual

def readValue? : Nat → List Char → Option (Json × List Char)
  | 0, _ => none
  | fuel + 1, text =>
      match skipBlank text with
      | [] => none
      | c :: rest =>
          if c = '[' then
            match skipBlank rest with
            | [] => none
            | c :: behind =>
                if c = ']' then some (.array [], behind)
                else (readElements? fuel rest).map fun (elements, rest) => (.array elements, rest)
          else if c = '\x7b' then
            match skipBlank rest with
            | [] => none
            | c :: behind =>
                if c = '\x7d' then some (.object [], behind)
                else (readMembers? fuel rest).map fun (members, rest) => (.object members, rest)
          else readScalar? (c :: rest)

def readElements? : Nat → List Char → Option (List Json × List Char)
  | 0, _ => none
  | fuel + 1, text =>
      match readValue? fuel text with
      | none => none
      | some (element, rest) =>
          match skipBlank rest with
          | [] => none
          | c :: rest =>
              if c = ']' then some ([element], rest)
              else if c = ',' then
                (readElements? fuel rest).map fun (elements, rest) => (element :: elements, rest)
              else none

def readMembers? : Nat → List Char → Option (List (Option String × Json) × List Char)
  | 0, _ => none
  | fuel + 1, text =>
      match readKey? text with
      | none => none
      | some (key, rest) =>
          match readValue? fuel rest with
          | none => none
          | some (value, rest) =>
              match skipBlank rest with
              | [] => none
              | c :: rest =>
                  if c = '\x7d' then some ([(key, value)], rest)
                  else if c = ',' then
                    (readMembers? fuel rest).map fun (members, rest) =>
                      ((key, value) :: members, rest)
                  else none

end

/-- Each level of nesting takes two calls and at least one character. -/
def readDocument? (text : List Char) : Option Json :=
  match readValue? (2 * text.length + 2) text with
  | none => none
  | some (document, rest) => if (skipBlank rest).isEmpty then some document else none

def parse? (text : String) : Option Json := readDocument? text.toList

end MethodSynthesis.Json
