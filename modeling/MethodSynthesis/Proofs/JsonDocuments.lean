import MethodSynthesis.Json.Printer
import MethodSynthesis.Json.Reader
import MethodSynthesis.Proofs.JsonNumbers
import MethodSynthesis.Proofs.JsonStrings

/-!
# Written documents read back

A document reads back as it is from the text that it is written as, at any depth of nesting. All
that is asked of it is that its number literals are such as a text can hold; a string that spells no
text reads back too. The induction is on the document, and it carries along what may stand around
the text: blanks before it, and behind it anything that does not go on with a number.
-/

namespace MethodSynthesis.Json

open NumberLiteral (LiteralEnd)

/-! ## Documents that a text can hold -/

mutual

/-- The number literals have parts that a text of a literal can have. -/
def WellFormed : Json → Prop
  | .null | .bool _ | .string _ => True
  | .number literal => literal.WellFormed
  | .array elements => ElementsWellFormed elements
  | .object members => MembersWellFormed members

def ElementsWellFormed : List Json → Prop
  | [] => True
  | element :: elements => element.WellFormed ∧ ElementsWellFormed elements

def MembersWellFormed : List (Option String × Json) → Prop
  | [] => True
  | (_, value) :: members => value.WellFormed ∧ MembersWellFormed members

end

theorem elementsWellFormed_iff {elements : List Json} :
    ElementsWellFormed elements ↔ ∀ element ∈ elements, element.WellFormed := by
  induction elements with
  | nil => simp [ElementsWellFormed]
  | cons element elements ih => simp [ElementsWellFormed, ih]

theorem membersWellFormed_iff {members : List (Option String × Json)} :
    MembersWellFormed members ↔ ∀ member ∈ members, member.2.WellFormed := by
  induction members with
  | nil => simp [MembersWellFormed]
  | cons member members ih => simp [MembersWellFormed, ih]

/-! ## Blanks -/

def AllBlank (text : List Char) : Prop := ∀ c ∈ text, isBlank c = true

theorem allBlank_nil : AllBlank [] := by simp [AllBlank]

theorem allBlank_indentation (depth : Nat) : AllBlank (indentation depth) := by
  intro c hc
  rw [List.eq_of_mem_replicate hc]
  rfl

theorem AllBlank.append {text more : List Char} (h : AllBlank text) (hmore : AllBlank more) :
    AllBlank (text ++ more) :=
  fun c hc => (List.mem_append.1 hc).elim (h c) (hmore c)

theorem AllBlank.newline_cons {text : List Char} (h : AllBlank text) : AllBlank ('\n' :: text) := by
  intro c hc
  rcases List.mem_cons.1 hc with rfl | hc
  · rfl
  · exact h c hc

theorem allBlank_newline : AllBlank ['\n'] := allBlank_nil.newline_cons

theorem skipBlank_append {blanks : List Char} {c : Char} (text : List Char) (h : AllBlank blanks)
    (hc : isBlank c = false) : skipBlank (blanks ++ c :: text) = c :: text := by
  rw [skipBlank, List.dropWhile_append_of_pos h, List.dropWhile_cons_of_neg (by simp [hc])]

theorem literalEnd_cons {c : Char} (text : List Char)
    (h : c.isDigit = false ∧ c ≠ '.' ∧ c ≠ 'e' ∧ c ≠ 'E') : LiteralEnd (c :: text) := by
  rintro d ⟨⟩
  exact h

/-! ## Strings and keys -/

/-- Behind its quote any string reads back, also one that spells no text. -/
theorem stringChars_spec (text : Option String) :
    ∃ body, stringChars text = '"' :: body ∧
      ∀ rest, readQuoted? (body ++ rest) = some (text, rest) := by
  cases text with
  | some text =>
      refine ⟨text.toList.flatMap escapeChar ++ ['"'], rfl, fun rest => ?_⟩
      rw [List.append_assoc]
      exact readQuoted?_written text rest
  | none =>
      refine ⟨"\\ud800\"".toList, rfl, fun rest => ?_⟩
      have hcode : hexCode? 'd' '8' '0' '0' = some 0xD800 := by decide
      have hpieces : readPieces? ("\\ud800\"".toList ++ rest) = some ([.surrogate 0xD800], rest) := by
        have hnumeric := readPieces?_numeric ('"' :: rest) hcode
        rw [readPieces?_quote] at hnumeric
        exact hnumeric
      rw [readQuoted?, hpieces]
      rfl

theorem readKey?_written (key : Option String) {blanks : List Char} (rest : List Char)
    (hblanks : AllBlank blanks) :
    readKey? (blanks ++ (stringChars key ++ ':' :: rest)) = some (key, rest) := by
  obtain ⟨body, hbody, hread⟩ := stringChars_spec key
  rw [hbody, List.cons_append, readKey?, skipBlank_append _ hblanks rfl]
  simp [hread, skipBlank, isBlank]

/-! ## The start of a written document -/

theorem numberText_head {literal : NumberLiteral} {text : List Char}
    (h : literal.NumberText text) :
    ∃ c rest, text = c :: rest ∧ (c = '-' ∨ c.isDigit = true) := by
  obtain ⟨hparts, exponent, -, rfl⟩ := h
  obtain ⟨c, whole, hwhole⟩ := List.exists_cons_of_ne_nil hparts.whole.ne_nil
  have hc := hparts.whole.all_digit c (by simp [hwhole])
  rw [hwhole]
  cases literal.negative with
  | true => exact ⟨_, _, rfl, .inl rfl⟩
  | false => exact ⟨_, _, rfl, .inr hc⟩

theorem ne_of_digit {c d : Char} (h : c = '-' ∨ c.isDigit = true)
    (hd : d ≠ '-' ∧ d.isDigit = false) : c ≠ d := by
  rintro rfl
  rcases h with h | h
  · exact hd.1 h
  · simp [hd.2] at h

theorem prettyChars_head (depth : Nat) {document : Json} (h : document.WellFormed) :
    ∃ c text, prettyChars depth document = c :: text ∧ isBlank c = false ∧ c ≠ ']' := by
  cases document with
  | null => exact ⟨_, _, rfl, rfl, by decide⟩
  | bool value => cases value <;> exact ⟨_, _, rfl, rfl, by decide⟩
  | number literal =>
      rw [WellFormed] at h
      obtain ⟨c, text, htext, hc⟩ := numberText_head (NumberLiteral.numberText_toChars h)
      refine ⟨c, text, htext, ?_, ne_of_digit hc (by decide)⟩
      simp [isBlank, ne_of_digit hc]
  | string text =>
      obtain ⟨body, hbody, -⟩ := stringChars_spec text
      exact ⟨_, _, hbody, rfl, by decide⟩
  | array elements =>
      rw [prettyChars, enclose]
      split <;> exact ⟨_, _, rfl, rfl, by decide⟩
  | object members =>
      rw [prettyChars, enclose]
      split <;> exact ⟨_, _, rfl, rfl, by decide⟩

/-! ## Scalars -/

theorem expect?_append (word rest : List Char) : expect? word (word ++ rest) = some rest := by
  induction word with
  | nil => rfl
  | cons c word ih => simpa [expect?] using ih

theorem readScalar?_null (rest : List Char) :
    readScalar? ('n' :: ("ull".toList ++ rest)) = some (.null, rest) := by
  simp only [readScalar?, Char.reduceEq, if_false, if_true, expect?_append, Option.map_some]

theorem readScalar?_true (rest : List Char) :
    readScalar? ('t' :: ("rue".toList ++ rest)) = some (.bool true, rest) := by
  simp only [readScalar?, Char.reduceEq, if_false, if_true, expect?_append, Option.map_some]

theorem readScalar?_false (rest : List Char) :
    readScalar? ('f' :: ("alse".toList ++ rest)) = some (.bool false, rest) := by
  simp only [readScalar?, Char.reduceEq, if_false, if_true, expect?_append, Option.map_some]

theorem readScalar?_number {literal : NumberLiteral} {text rest : List Char}
    (h : literal.NumberText text) (hrest : LiteralEnd rest) :
    readScalar? (text ++ rest) = some (.number literal, rest) := by
  obtain ⟨c, more, rfl, hc⟩ := numberText_head h
  have hread := NumberLiteral.read?_append h hrest
  rw [List.cons_append] at hread ⊢
  simp [readScalar?, ne_of_digit hc, hread]

/-- The text is read as the part, with blanks before it and the end of a literal behind it. -/
def ReadsAs (read : Nat → List Char → Option (α × List Char)) (text : List Char) (part : α) :
    Prop :=
  ∀ fuel blanks rest, AllBlank blanks → LiteralEnd rest → 2 * text.length ≤ fuel →
    read fuel (blanks ++ (text ++ rest)) = some (part, rest)

theorem readsAs_of_readScalar? {c : Char} {text : List Char} {document : Json}
    (hc : isBlank c = false ∧ c ≠ '[' ∧ c ≠ '\x7b')
    (hscalar : ∀ rest, LiteralEnd rest → readScalar? (c :: (text ++ rest)) = some (document, rest)) :
    ReadsAs readValue? (c :: text) document := by
  intro fuel blanks rest hblanks hrest hfuel
  obtain ⟨fuel, rfl⟩ : ∃ n, fuel = n + 1 := Nat.exists_eq_succ_of_ne_zero (by
    simp only [List.length_cons] at hfuel
    omega)
  rw [List.cons_append, readValue?, skipBlank_append _ hblanks hc.1]
  simp only [hc, if_false, hscalar rest hrest]

/-! ## Parts on lines of their own -/

/-- How a reader of parts goes on behind a part that was read. -/
structure ReadsParts (closing : Char) (readPart : Nat → List Char → Option (α × List Char))
    (read : Nat → List Char → Option (List α × List Char)) : Prop where
  last : ∀ {fuel text part behind rest}, readPart fuel text = some (part, behind) →
    skipBlank behind = closing :: rest → read (fuel + 1) text = some ([part], rest)
  next : ∀ {fuel text part behind more parts rest}, readPart fuel text = some (part, behind) →
    skipBlank behind = ',' :: more → read fuel more = some (parts, rest) →
    read (fuel + 1) text = some (part :: parts, rest)

theorem readsParts_elements : ReadsParts ']' readValue? readElements? where
  last hpart hbehind := by simp [readElements?, hpart, hbehind]
  next hpart hbehind hmore := by simp [readElements?, hpart, hbehind, hmore]

def readMember? (fuel : Nat) (text : List Char) :
    Option ((Option String × Json) × List Char) := do
  let (key, rest) ← readKey? text
  let (value, rest) ← readValue? fuel rest
  return ((key, value), rest)

theorem readMember?_eq_some {fuel : Nat} {text : List Char} {key : Option String} {value : Json}
    {rest : List Char} (h : readMember? fuel text = some ((key, value), rest)) :
    ∃ behind, readKey? text = some (key, behind) ∧
      readValue? fuel behind = some (value, rest) := by
  simp only [readMember?, Option.bind_eq_bind, Option.bind_eq_some_iff, Prod.exists] at h
  obtain ⟨k, behind, hkey, v, r, hvalue, hmember⟩ := h
  cases hmember
  exact ⟨behind, hkey, hvalue⟩

theorem readsParts_members : ReadsParts '\x7d' readMember? readMembers? where
  last := by
    intro fuel text part behind rest hpart hbehind
    obtain ⟨middle, hkey, hvalue⟩ := readMember?_eq_some hpart
    simp [readMembers?, hkey, hvalue, hbehind]
  next := by
    intro fuel text part behind more parts rest hpart hbehind hmore
    obtain ⟨middle, hkey, hvalue⟩ := readMember?_eq_some hpart
    simp [readMembers?, hkey, hvalue, hbehind, hmore]

/-- What stands behind a part: the other parts, or what ends them all. -/
def behindPart (depth : Nat) (parts : List (List Char)) (rest : List Char) : List Char :=
  if parts.isEmpty then rest else ',' :: '\n' :: (joinLines depth parts ++ rest)

theorem joinLines_cons_append (depth : Nat) (part : List Char) (parts : List (List Char))
    (rest : List Char) :
    joinLines depth (part :: parts) ++ rest =
      indentation depth ++ (part ++ behindPart depth parts rest) := by
  cases parts <;> simp [joinLines, behindPart]

theorem skipBlank_joinLines (depth : Nat) {c : Char} {part text : List Char}
    (parts : List (List Char)) (rest : List Char) (hpart : part = c :: text)
    (hc : isBlank c = false) :
    skipBlank (['\n'] ++ (joinLines depth (part :: parts) ++ rest)) =
      c :: (text ++ behindPart depth parts rest) := by
  rw [joinLines_cons_append, ← List.append_assoc, hpart]
  exact skipBlank_append _ (allBlank_newline.append (allBlank_indentation depth)) hc

theorem length_joinLines_cons (depth : Nat) (part : List Char) (parts : List (List Char)) :
    part.length ≤ (joinLines depth (part :: parts)).length ∧
      (parts ≠ [] →
        (joinLines depth parts).length < (joinLines depth (part :: parts)).length) := by
  cases parts with
  | nil => simp [joinLines]
  | cons next parts =>
      simp only [joinLines, List.length_append, List.length_cons]
      omega

/-- Joined parts read back one by one up to the bracket that closes them. -/
theorem ReadsParts.read_joinLines {closing : Char}
    {readPart : Nat → List Char → Option (α × List Char)}
    {read : Nat → List Char → Option (List α × List Char)} {written : α → List Char}
    (h : ReadsParts closing readPart read) (hclosing : isBlank closing = false)
    {depth : Nat} {parts : List α} (hparts : ∀ part ∈ parts, ReadsAs readPart (written part) part)
    (hne : parts ≠ []) {fuel : Nat} {blanks before rest : List Char} (hblanks : AllBlank blanks)
    (hbefore : AllBlank before) (hend : LiteralEnd (before ++ closing :: rest))
    (hfuel : 2 * (joinLines depth (parts.map written)).length < fuel) :
    read fuel (blanks ++ (joinLines depth (parts.map written) ++ (before ++ closing :: rest))) =
      some (parts, rest) := by
  induction parts generalizing fuel blanks with
  | nil => exact absurd rfl hne
  | cons part parts ih =>
      obtain ⟨fuel, rfl⟩ : ∃ n, fuel = n + 1 := Nat.exists_eq_succ_of_ne_zero (by omega)
      obtain ⟨hfirst, hothers⟩ := length_joinLines_cons depth (written part) (parts.map written)
      rw [List.map_cons] at hfuel ⊢
      rw [joinLines_cons_append, ← List.append_assoc]
      have hindented := hblanks.append (allBlank_indentation depth)
      have hpart := hparts part List.mem_cons_self fuel (blanks ++ indentation depth)
      -- Behind the part stands the closing bracket, or a comma and the other parts.
      cases parts with
      | nil =>
          exact h.last (hpart _ hindented hend (by omega)) (skipBlank_append rest hbefore hclosing)
      | cons next parts =>
          have hmore : read fuel (['\n'] ++ (joinLines depth ((next :: parts).map written) ++
              (before ++ closing :: rest))) = some (next :: parts, rest) := by
            have hfewer := hothers (List.cons_ne_nil _ _)
            exact ih (fun part hpart => hparts part (List.mem_cons_of_mem _ hpart))
              (List.cons_ne_nil next parts) allBlank_newline (by omega)
          exact h.next (hpart _ hindented (literalEnd_cons _ (by decide)) (by omega))
            (skipBlank_append _ allBlank_nil rfl) hmore

/-! ## Arrays and objects -/

theorem elementParts_eq (depth : Nat) (elements : List Json) :
    elementParts depth elements = elements.map (prettyChars depth) := by
  induction elements with
  | nil => rfl
  | cons element elements ih => rw [elementParts, ih, List.map_cons]

def memberChars (depth : Nat) (member : Option String × Json) : List Char :=
  stringChars member.1 ++ ':' :: ' ' :: prettyChars depth member.2

theorem memberParts_eq (depth : Nat) (members : List (Option String × Json)) :
    memberParts depth members = members.map (memberChars depth) := by
  induction members with
  | nil => rfl
  | cons member members ih => rw [memberParts, ih, List.map_cons]; rfl

theorem readsAs_member {depth : Nat} {member : Option String × Json}
    (h : ReadsAs readValue? (prettyChars depth member.2) member.2) :
    ReadsAs readMember? (memberChars depth member) member := by
  intro fuel blanks rest hblanks hrest hfuel
  have hkey := readKey?_written member.1 (' ' :: (prettyChars depth member.2 ++ rest)) hblanks
  have hspace : AllBlank [' '] := by simp [AllBlank, isBlank]
  have hvalue := h fuel [' '] rest hspace hrest (by simp [memberChars] at hfuel; omega)
  simp only [List.cons_append, List.nil_append] at hvalue
  simp [memberChars, readMember?, hkey, hvalue]

/-! ## Parts between brackets -/

/-- How a value that starts with a bracket is read, with the reader of what stands behind it. -/
structure ReadsEnclosed (opening closing : Char) (wrap : List α → Json)
    (read : Nat → List Char → Option (List α × List Char)) : Prop where
  empty : ∀ {fuel blanks text rest}, AllBlank blanks → skipBlank text = closing :: rest →
    readValue? (fuel + 1) (blanks ++ opening :: text) = some (wrap [], rest)
  parts : ∀ {fuel blanks text c behind parts rest}, AllBlank blanks →
    skipBlank text = c :: behind → c ≠ closing → read fuel text = some (parts, rest) →
    readValue? (fuel + 1) (blanks ++ opening :: text) = some (wrap parts, rest)

theorem readsEnclosed_array : ReadsEnclosed '[' ']' .array readElements? where
  empty := by
    intro fuel blanks text rest hblanks hstart
    rw [readValue?, skipBlank_append _ hblanks rfl]
    simp [hstart]
  parts := by
    intro fuel blanks text c behind parts rest hblanks hstart hc hparts
    rw [readValue?, skipBlank_append _ hblanks rfl]
    simp [hstart, hc, hparts]

theorem readsEnclosed_object : ReadsEnclosed '\x7b' '\x7d' .object readMembers? where
  empty := by
    intro fuel blanks text rest hblanks hstart
    rw [readValue?, skipBlank_append _ hblanks rfl]
    simp [hstart]
  parts := by
    intro fuel blanks text c behind parts rest hblanks hstart hc hparts
    rw [readValue?, skipBlank_append _ hblanks rfl]
    simp [hstart, hc, hparts]

theorem enclose_map_append {opening closing : Char} {depth : Nat} {parts : List α}
    {written : α → List Char} (hne : parts ≠ []) (rest : List Char) :
    enclose opening closing depth (parts.map written) ++ rest =
      opening :: (['\n'] ++ (joinLines (depth + 1) (parts.map written) ++
        ('\n' :: indentation depth ++ closing :: rest))) := by
  simp [enclose, hne]

theorem length_joinLines_lt_enclose (opening closing : Char) (depth : Nat)
    {parts : List (List Char)} (hne : parts ≠ []) :
    (joinLines (depth + 1) parts).length + 1 < (enclose opening closing depth parts).length := by
  simp only [enclose, List.isEmpty_iff, hne, if_false, List.length_append, List.length_cons]
  omega

/-- A bracketed list reads back when its parts do and none starts like the closing bracket. -/
theorem ReadsEnclosed.readsAs {opening closing : Char} {wrap : List α → Json}
    {read : Nat → List Char → Option (List α × List Char)}
    {readPart : Nat → List Char → Option (α × List Char)} {written : α → List Char}
    (h : ReadsEnclosed opening closing wrap read) (hread : ReadsParts closing readPart read)
    (hclosing : isBlank closing = false) {depth : Nat} {parts : List α}
    (hparts : ∀ part ∈ parts, ReadsAs readPart (written part) part)
    (hstart : ∀ part ∈ parts, ∃ c text, written part = c :: text ∧ isBlank c = false ∧ c ≠ closing) :
    ReadsAs readValue? (enclose opening closing depth (parts.map written)) (wrap parts) := by
  intro fuel blanks rest hblanks _ hfuel
  obtain ⟨fuel, rfl⟩ : ∃ n, fuel = n + 1 := Nat.exists_eq_succ_of_ne_zero (by
    rintro rfl
    cases parts <;> simp [enclose] at hfuel)
  cases parts with
  | nil => exact h.empty hblanks (skipBlank_append rest allBlank_nil hclosing)
  | cons part parts =>
      obtain ⟨c, text, htext, hblank, hc⟩ := hstart part List.mem_cons_self
      have hlength := length_joinLines_lt_enclose opening closing depth
        (List.cons_ne_nil (written part) (parts.map written))
      have hclosed := (allBlank_indentation depth).newline_cons
      rw [enclose_map_append (List.cons_ne_nil part parts)]
      have hfirst := skipBlank_joinLines (depth + 1) (parts.map written)
        ('\n' :: indentation depth ++ closing :: rest) htext hblank
      refine h.parts hblanks hfirst hc (hread.read_joinLines hclosing hparts
        (List.cons_ne_nil part parts) allBlank_newline hclosed (literalEnd_cons _ (by decide)) ?_)
      rw [List.map_cons] at hfuel ⊢
      omega

theorem readsAs_array {depth : Nat} {elements : List Json}
    (hread : ∀ element ∈ elements, ReadsAs readValue? (prettyChars (depth + 1) element) element)
    (hform : ∀ element ∈ elements, element.WellFormed) :
    ReadsAs readValue? (prettyChars depth (.array elements)) (.array elements) := by
  rw [prettyChars, elementParts_eq]
  exact readsEnclosed_array.readsAs readsParts_elements rfl hread
    fun element helement => prettyChars_head (depth + 1) (hform element helement)

theorem readsAs_object {depth : Nat} {members : List (Option String × Json)}
    (hread : ∀ member ∈ members,
      ReadsAs readValue? (prettyChars (depth + 1) member.2) member.2) :
    ReadsAs readValue? (prettyChars depth (.object members)) (.object members) := by
  rw [prettyChars, memberParts_eq]
  refine readsEnclosed_object.readsAs readsParts_members rfl
    (fun member hmember => readsAs_member (hread member hmember)) fun member _ => ?_
  obtain ⟨body, hbody, -⟩ := stringChars_spec member.1
  exact ⟨'"', _, by rw [memberChars, hbody]; rfl, rfl, by decide⟩

/-! ## Whole documents -/

mutual

theorem readsAs_prettyChars : ∀ (document : Json) (depth : Nat), document.WellFormed →
    ReadsAs readValue? (prettyChars depth document) document
  | .null, _, _ => readsAs_of_readScalar? (by decide) fun rest _ => readScalar?_null rest
  | .bool true, _, _ => readsAs_of_readScalar? (by decide) fun rest _ => readScalar?_true rest
  | .bool false, _, _ => readsAs_of_readScalar? (by decide) fun rest _ => readScalar?_false rest
  | .number literal, _, h => by
      rw [WellFormed] at h
      obtain ⟨c, text, htext, hc⟩ := numberText_head (NumberLiteral.numberText_toChars h)
      rw [prettyChars, htext]
      refine readsAs_of_readScalar? ⟨by simp [isBlank, ne_of_digit hc],
        ne_of_digit hc (by decide), ne_of_digit hc (by decide)⟩ fun rest hrest => ?_
      have hread := readScalar?_number (NumberLiteral.numberText_toChars h) hrest
      rwa [htext] at hread
  | .string text, _, _ => by
      obtain ⟨body, hbody, hread⟩ := stringChars_spec text
      rw [prettyChars, hbody]
      exact readsAs_of_readScalar? (by decide) fun rest _ => by simp [readScalar?, hread]
  | .array elements, depth, h => by
      rw [WellFormed] at h
      exact readsAs_array (readsAs_elements elements (depth + 1) h) (elementsWellFormed_iff.1 h)
  | .object members, depth, h => by
      rw [WellFormed] at h
      exact readsAs_object (readsAs_members members (depth + 1) h)

theorem readsAs_elements : ∀ (elements : List Json) (depth : Nat), ElementsWellFormed elements →
    ∀ element ∈ elements, ReadsAs readValue? (prettyChars depth element) element
  | [], _, _ => fun _ h => absurd h List.not_mem_nil
  | element :: elements, depth, h => by
      intro other hother
      rcases List.mem_cons.1 hother with hfirst | hother
      · rw [hfirst]
        exact readsAs_prettyChars element depth h.1
      · exact readsAs_elements elements depth h.2 other hother

theorem readsAs_members : ∀ (members : List (Option String × Json)) (depth : Nat),
    MembersWellFormed members →
    ∀ member ∈ members, ReadsAs readValue? (prettyChars depth member.2) member.2
  | [], _, _ => fun _ h => absurd h List.not_mem_nil
  | (key, value) :: members, depth, h => by
      intro other hother
      rcases List.mem_cons.1 hother with hfirst | hother
      · rw [hfirst]
        exact readsAs_prettyChars value depth h.1
      · exact readsAs_members members depth h.2 other hother

end

/-- A document reads back from the text that it is written as. -/
theorem parse?_pretty {document : Json} (h : document.WellFormed) :
    parse? document.pretty = some document := by
  have hread := readsAs_prettyChars document 0 h (2 * (prettyChars 0 document).length + 2) [] []
    allBlank_nil (by simp [LiteralEnd]) (by omega)
  rw [List.nil_append, List.append_nil] at hread
  rw [parse?, pretty, String.toList_ofList, readDocument?, hread]
  rfl

end MethodSynthesis.Json
