import MethodSynthesis.Proofs.JsonRecords
import MethodSynthesis.Proofs.ScalarTexts
import MethodSynthesis.Scenario.Call

/-!
# Texts of calls

A text is read as a call exactly when it is laid out as one: a name, perhaps blanks, and brackets
around a list of scalars, the closing one at the end. A text has no more than one such layout,
because a name ends before a blank or a bracket. What stands between the brackets is read as the
elements of an array, and none of its characters can close that array before its end: the reader
takes away one scalar after the other, each as one of its texts.
-/

namespace MethodSynthesis

namespace Call

open Json
open NumberLiteral (LiteralEnd)
open Text (forall_below)

variable {text rest line name gap inner : List Char} {v : Value} {values : List Value}

/-! ## Arguments -/

def IsArgument (text : List Char) (v : Value) : Prop :=
  ∃ document, ScalarText text document ∧ Value.ofJson? document = some v

/-- One or more arguments with blanks around them and commas between them. -/
inductive ArgumentTexts : List Char → List Value → Prop
  | last {before text after : List Char} {v : Value} (hbefore : AllBlank before)
      (h : IsArgument text v) (hafter : AllBlank after) :
      ArgumentTexts (before ++ (text ++ after)) [v]
  | next {before text after more : List Char} {v : Value} {values : List Value}
      (hbefore : AllBlank before) (h : IsArgument text v) (hafter : AllBlank after)
      (hmore : ArgumentTexts more values) :
      ArgumentTexts (before ++ (text ++ (after ++ ',' :: more))) (v :: values)

def ArgumentList (text : List Char) (values : List Value) : Prop :=
  AllBlank text ∧ values = [] ∨ ArgumentTexts text values

theorem exists_allBlank_of_skipBlank (h : skipBlank text = rest) :
    ∃ blanks, AllBlank blanks ∧ text = blanks ++ rest := by
  subst h
  exact ⟨text.takeWhile isBlank, fun _ hc => List.mem_takeWhile_imp hc,
    List.takeWhile_append_dropWhile.symm⟩

theorem literalEnd_append (hafter : AllBlank text) (hrest : LiteralEnd rest) :
    LiteralEnd (text ++ rest) := by
  cases text with
  | nil => exact hrest
  | cons c text =>
      refine literalEnd_cons _ ?_
      have hblank := hafter c List.mem_cons_self
      simp only [isBlank, Bool.or_eq_true, decide_eq_true_eq] at hblank
      rcases hblank with ((rfl | rfl) | rfl) | rfl <;> decide

theorem readElements?_of_argumentTexts (h : ArgumentTexts text values) :
    ∃ elements, elements.mapM Value.ofJson? = some values ∧ ∀ fuel rest, 2 * text.length < fuel →
      readElements? fuel (text ++ ']' :: rest) = some (elements, rest) := by
  induction h with
  | @last before text after v hbefore h hafter =>
      obtain ⟨document, hscalar, hvalue⟩ := h
      refine ⟨[document], by simp [hvalue], fun fuel rest hfuel => ?_⟩
      obtain ⟨fuel, rfl⟩ : ∃ n, fuel = n + 1 := Nat.exists_eq_succ_of_ne_zero (by omega)
      simp only [List.length_append] at hfuel
      have hread := hscalar.readsAs fuel before (after ++ ']' :: rest) hbefore
        (literalEnd_append hafter (literalEnd_cons _ (by decide))) (by omega)
      simpa using readsParts_elements.last hread (skipBlank_append _ hafter rfl)
  | @next before text after more v values hbefore h hafter hmore ih =>
      obtain ⟨document, hscalar, hvalue⟩ := h
      obtain ⟨elements, hvalues, hothers⟩ := ih
      refine ⟨document :: elements, by simp [hvalue, hvalues], fun fuel rest hfuel => ?_⟩
      obtain ⟨fuel, rfl⟩ : ∃ n, fuel = n + 1 := Nat.exists_eq_succ_of_ne_zero (by omega)
      simp only [List.length_append, List.length_cons] at hfuel
      have hread := hscalar.readsAs fuel before (after ++ ',' :: (more ++ ']' :: rest)) hbefore
        (literalEnd_append hafter (literalEnd_cons _ (by decide))) (by omega)
      simpa using readsParts_elements.next hread (skipBlank_append _ hafter rfl)
        (hothers fuel rest (by omega))

theorem readValue?_cases {fuel : Nat} {document : Json}
    (h : readValue? fuel text = some (document, rest)) :
    (∃ elements, document = .array elements) ∨ (∃ members, document = .object members) ∨
      readScalar? (skipBlank text) = some (document, rest) := by
  cases fuel with
  | zero => cases h
  | succ fuel =>
      rw [readValue?] at h
      split at h
      next => cases h
      next c behind hstart =>
        split at h
        next =>
          left
          split at h
          next => cases h
          split at h
          next =>
            cases h
            exact ⟨[], rfl⟩
          next =>
            obtain ⟨⟨elements, _⟩, -, heq⟩ := Option.map_eq_some_iff.mp h
            cases heq
            exact ⟨elements, rfl⟩
        right
        split at h
        next =>
          left
          split at h
          next => cases h
          split at h
          next =>
            cases h
            exact ⟨[], rfl⟩
          next =>
            obtain ⟨⟨members, _⟩, -, heq⟩ := Option.map_eq_some_iff.mp h
            cases heq
            exact ⟨members, rfl⟩
        next =>
          right
          rwa [hstart]

theorem exists_isArgument_of_readValue? {fuel : Nat} {document : Json}
    (h : readValue? fuel text = some (document, rest)) (hvalue : Value.ofJson? document = some v) :
    ∃ before written, AllBlank before ∧ IsArgument written v ∧ text = before ++ (written ++ rest) := by
  rcases readValue?_cases h with ⟨elements, rfl⟩ | ⟨members, rfl⟩ | hread
  · cases hvalue
  · cases hvalue
  · have hspelled : document ≠ .string none := by
      rintro rfl
      cases hvalue
    obtain ⟨written, hwritten, htext⟩ := exists_scalarText_of_readScalar? hread hspelled
    obtain ⟨before, hbefore, hskip⟩ := exists_allBlank_of_skipBlank htext
    exact ⟨before, written, hbefore, ⟨document, hwritten, hvalue⟩, hskip⟩

theorem exists_argumentTexts_of_readElements? {fuel : Nat} {elements : List Json}
    (h : readElements? fuel text = some (elements, rest))
    (hvalues : elements.mapM Value.ofJson? = some values) :
    ∃ inner, ArgumentTexts inner values ∧ text = inner ++ ']' :: rest := by
  induction fuel generalizing text elements values with
  | zero => cases h
  | succ fuel ih =>
      rw [readElements?] at h
      split at h
      next => cases h
      next element behind hread =>
        split at h
        next => cases h
        next c more hbehind =>
          obtain ⟨after, hafter, rfl⟩ := exists_allBlank_of_skipBlank hbehind
          rw [mapM_eq_some_iff] at hvalues
          split at h
          next hclosing =>
            cases h
            obtain ⟨v, _, hv, hnil, rfl⟩ := List.forall₂_cons_left_iff.mp hvalues
            obtain rfl := List.forall₂_nil_left_iff.mp hnil
            obtain ⟨before, written, hbefore, hwritten, rfl⟩ :=
              exists_isArgument_of_readValue? hread hv
            refine ⟨_, .last hbefore hwritten hafter, ?_⟩
            rw [← hclosing, List.append_assoc, List.append_assoc]
          split at h
          next hcomma =>
            obtain ⟨⟨others, last⟩, hothers, heq⟩ := Option.map_eq_some_iff.mp h
            cases heq
            obtain ⟨v, values, hv, hrest, rfl⟩ := List.forall₂_cons_left_iff.mp hvalues
            obtain ⟨before, written, hbefore, hwritten, rfl⟩ :=
              exists_isArgument_of_readValue? hread hv
            obtain ⟨inner, hinner, rfl⟩ := ih hothers (mapM_eq_some_iff.mpr hrest)
            refine ⟨_, .next hbefore hwritten hafter hinner, ?_⟩
            rw [hcomma]
            simp
          next => cases h

theorem eq_of_append_bracket (h : inner ++ [']'] = text ++ ']' :: rest) (hrest : AllBlank rest) :
    inner = text := by
  cases rest using List.reverseRecOn with
  | nil => exact List.append_cancel_right h
  | append_singleton rest c =>
      have hlast : inner ++ [']'] = (text ++ ']' :: rest) ++ [c] := by simpa using h
      obtain ⟨-, hc⟩ := List.append_inj' hlast rfl
      obtain rfl := List.head_eq_of_cons_eq hc
      cases hrest ']' (by simp)

theorem skipBlank_isEmpty_iff : (skipBlank text).isEmpty = true ↔ AllBlank text := by
  rw [List.isEmpty_iff, skipBlank, List.dropWhile_eq_nil_iff]
  rfl

theorem readDocument?_eq_some_iff {document : Json} :
    readDocument? text = some document ↔
      ∃ rest, readValue? (2 * text.length + 2) text = some (document, rest) ∧ AllBlank rest := by
  unfold readDocument?
  cases readValue? (2 * text.length + 2) text with
  | none => simp
  | some result =>
      obtain ⟨other, rest⟩ := result
      by_cases hrest : (skipBlank rest).isEmpty = true
      · have hblank := skipBlank_isEmpty_iff.mp hrest
        simp only [hrest, if_true, Option.some.injEq]
        exact ⟨fun h => ⟨rest, by rw [h], hblank⟩, fun ⟨_, heq, _⟩ => (Prod.mk.inj heq).1⟩
      · simp only [hrest, Bool.false_eq_true, if_false, Option.some.injEq, Prod.mk.injEq,
          reduceCtorEq, false_iff, not_exists, not_and]
        rintro _ ⟨-, rfl⟩ hblank
        exact hrest (skipBlank_isEmpty_iff.mpr hblank)

theorem readValue?_array_cases {fuel : Nat} {elements : List Json}
    (h : readValue? (fuel + 1) ('[' :: text) = some (.array elements, rest)) :
    (skipBlank text = ']' :: rest ∧ elements = []) ∨
      readElements? fuel text = some (elements, rest) := by
  have hstart : skipBlank ('[' :: text) = '[' :: text := rfl
  simp only [readValue?, hstart, if_true] at h
  split at h
  next => cases h
  next c behind hbehind =>
    split at h
    next hclosing =>
      cases h
      exact .inl ⟨by rw [hbehind, hclosing], rfl⟩
    next =>
      obtain ⟨_, hread, heq⟩ := Option.map_eq_some_iff.mp h
      cases heq
      exact .inr hread

theorem listOfJson?_eq_some_iff {document : Json} :
    Value.listOfJson? document = some values ↔
      ∃ elements, document = .array elements ∧ elements.mapM Value.ofJson? = some values := by
  cases document <;> simp [Value.listOfJson?]

theorem ArgumentTexts.head (h : ArgumentTexts text values) (rest : List Char) :
    ∃ c behind, skipBlank (text ++ rest) = c :: behind ∧ c ≠ ']' := by
  have hargument : ∀ {before text : List Char} {v} (behind : List Char), AllBlank before →
      IsArgument text v →
      ∃ c more, skipBlank (before ++ (text ++ behind)) = c :: more ∧ c ≠ ']' := by
    rintro before text v behind hbefore ⟨document, hscalar, -⟩
    obtain ⟨c, more, rfl, hblank, hc⟩ := hscalar.head
    refine ⟨c, more ++ behind, skipBlank_append _ hbefore hblank, ?_⟩
    rintro rfl
    exact hc (by simp)
  cases h with
  | last hbefore h hafter =>
      simp only [List.append_assoc]
      exact hargument _ hbefore h
  | next hbefore h hafter hmore =>
      simp only [List.append_assoc]
      exact hargument _ hbefore h

/-- Among the arguments no bracket closes the array before its end. -/
theorem arguments?_eq_some_iff : arguments? text = some values ↔ ArgumentList text values := by
  simp only [arguments?, Option.bind_eq_some_iff, readDocument?_eq_some_iff,
    listOfJson?_eq_some_iff]
  constructor
  · rintro ⟨_, ⟨rest, hread, hrest⟩, elements, rfl, hvalues⟩
    rcases readValue?_array_cases hread with ⟨hempty, rfl⟩ | helements
    · obtain ⟨blanks, hblanks, htext⟩ := exists_allBlank_of_skipBlank hempty
      rw [eq_of_append_bracket htext hrest]
      exact .inl ⟨hblanks, by simpa using hvalues.symm⟩
    · obtain ⟨inner, hinner, htext⟩ := exists_argumentTexts_of_readElements? helements hvalues
      rw [eq_of_append_bracket htext hrest]
      exact .inr hinner
  · rintro (⟨hblank, rfl⟩ | htexts)
    · exact ⟨_, ⟨[], readsEnclosed_array.empty allBlank_nil (skipBlank_append [] hblank rfl),
        allBlank_nil⟩, [], rfl, rfl⟩
    · obtain ⟨elements, hvalues, hread⟩ := readElements?_of_argumentTexts htexts
      obtain ⟨c, behind, hstart, hc⟩ := htexts.head [']']
      refine ⟨_, ⟨[], readsEnclosed_array.parts allBlank_nil hstart hc (hread _ [] ?_),
        allBlank_nil⟩, elements, rfl, hvalues⟩
      simp only [List.length_cons, List.length_append]
      omega

/-! ## Layouts -/

/-- A line that is a name, blanks, and one line between brackets. -/
structure Layout (line name gap inner : List Char) : Prop where
  line_eq : line = name ++ (gap ++ '(' :: (inner ++ [')']))
  name : isName name = true
  gap : ∀ c ∈ gap, isGap c = true
  oneLine : '\n' ∉ inner

theorem isNameChar_of_isName (h : isName name = true) : ∀ c ∈ name, isNameChar c = true := by
  cases name with
  | nil => cases h
  | cons c name =>
      simp only [isName, Bool.and_eq_true, List.all_eq_true] at h
      refine List.forall_mem_cons.mpr ⟨?_, h.2⟩
      have hstart := h.1
      simp only [isNameStart, isNameChar, Char.isAlphanum, Bool.or_eq_true] at hstart ⊢
      exact hstart.imp_left Or.inl

theorem not_isNameChar_of_isGap {c : Char} (h : isGap c = true) : isNameChar c = false := by
  have hsmall : c.toNat < 33 := by
    simp only [isGap, Bool.or_eq_true, Bool.and_eq_true, decide_eq_true_eq] at h
    rcases h with rfl | h
    · decide
    · omega
  exact forall_below (P := fun c => isNameChar c = false) (by decide) hsmall

theorem beforeClosing?_eq_some_iff :
    beforeClosing? text = some inner ↔ text = inner ++ [')'] ∧ '\n' ∉ inner := by
  unfold beforeClosing?
  constructor
  · intro h
    split at h
    · rename_i hends
      cases h
      exact ⟨(List.dropLast_append_getLast? _ hends.1).symm,
        fun hmem => hends.2 (List.dropLast_subset text hmem)⟩
    · cases h
  · rintro ⟨rfl, hline⟩
    simp [hline]

theorem bracketed?_eq_some_iff :
    bracketed? text = some inner ↔ text = '(' :: (inner ++ [')']) ∧ '\n' ∉ inner := by
  cases text with
  | nil => simp [bracketed?]
  | cons c text =>
      by_cases hc : c = '('
      · simp [bracketed?, hc, beforeClosing?_eq_some_iff]
      · simp [bracketed?, hc]

theorem isNameChar_head_gap (hgap : ∀ c ∈ gap, isGap c = true) (rest : List Char) :
    ∀ c ∈ (gap ++ '(' :: rest).head?, isNameChar c = false := by
  cases gap with
  | nil =>
      rintro c ⟨⟩
      rfl
  | cons d gap =>
      rintro c ⟨⟩
      exact not_isNameChar_of_isGap (hgap d List.mem_cons_self)

theorem split?_of_layout (h : Layout line name gap inner) : split? line = some (name, inner) := by
  have hname := isNameChar_of_isName h.name
  obtain ⟨htake, hdrop⟩ : (gap ++ '(' :: (inner ++ [')'])).takeWhile isNameChar = [] ∧
      (gap ++ '(' :: (inner ++ [')'])).dropWhile isNameChar = gap ++ '(' :: (inner ++ [')']) := by
    have hhead := isNameChar_head_gap h.gap (inner ++ [')'])
    cases htext : gap ++ '(' :: (inner ++ [')']) with
    | nil => simp at htext
    | cons c text =>
        rw [htext] at hhead
        simp [hhead c rfl]
  have hbrackets : (gap ++ '(' :: (inner ++ [')'])).dropWhile isGap = '(' :: (inner ++ [')']) := by
    rw [List.dropWhile_append_of_pos h.gap]
    rfl
  have hinner := bracketed?_eq_some_iff.mpr ⟨rfl, h.oneLine⟩
  rw [split?, h.line_eq, List.takeWhile_append_of_pos hname, List.dropWhile_append_of_pos hname,
    htake, hdrop, hbrackets, List.append_nil, if_pos h.name, hinner]
  rfl

theorem exists_layout_of_split? (h : split? line = some (name, inner)) :
    ∃ gap, Layout line name gap inner := by
  simp only [split?] at h
  split at h
  · rename_i hname
    obtain ⟨inside, hinside, heq⟩ := Option.map_eq_some_iff.mp h
    cases heq
    obtain ⟨hbrackets, hline⟩ := bracketed?_eq_some_iff.mp hinside
    refine ⟨(line.dropWhile isNameChar).takeWhile isGap, ?_, hname,
      fun c hc => List.mem_takeWhile_imp hc, hline⟩
    rw [← hbrackets, List.takeWhile_append_dropWhile, List.takeWhile_append_dropWhile]
  · cases h

/-- The parts of a layout are found in the line. -/
theorem layout_unique {name' gap' inner' : List Char} (h : Layout line name gap inner)
    (h' : Layout line name' gap' inner') : name' = name ∧ gap' = gap ∧ inner' = inner := by
  have hsplit := split?_of_layout h
  rw [split?_of_layout h'] at hsplit
  cases hsplit
  have hline := h.line_eq
  rw [h'.line_eq] at hline
  exact ⟨rfl, List.append_cancel_right (List.append_cancel_left hline), rfl⟩

theorem ofText_of_layout {line : String} (h : Layout line.toList name gap inner) :
    ofText line =
      match arguments? inner with
      | none => .error (.badArguments line)
      | some values => .ok ⟨String.ofList name, values⟩ := by
  cases hvalues : arguments? inner <;> simp only [ofText, split?_of_layout h, hvalues]

/-- A line is read as a call exactly when it is laid out as the call. -/
theorem ofText_eq_ok_iff {line : String} {call : Call} :
    ofText line = .ok call ↔ ∃ gap inner,
      Layout line.toList call.method.toList gap inner ∧ ArgumentList inner call.arguments := by
  constructor
  · intro h
    unfold ofText at h
    split at h
    next => cases h
    next name inner hsplit =>
      split at h
      next => cases h
      next values hvalues =>
        cases h
        obtain ⟨gap, hlayout⟩ := exists_layout_of_split? hsplit
        exact ⟨gap, inner, by simpa using hlayout, arguments?_eq_some_iff.mp hvalues⟩
  · rintro ⟨gap, inner, hlayout, harguments⟩
    rw [ofText_of_layout hlayout, arguments?_eq_some_iff.mpr harguments, String.ofList_toList]

end Call

end MethodSynthesis
