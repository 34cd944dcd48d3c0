import MethodSynthesis.Proofs.CallTexts
import MethodSynthesis.Proofs.ValueTexts

/-!
# Written calls

Outside its strings a list of arguments has no bracket: numbers and words are written without any,
and what a string spells stays between its quotes, because a quote or a backslash among it is
escaped. A call that is written is therefore read back as it is, whatever its strings hold, as far
as its floats are.
-/

namespace MethodSynthesis

namespace Json

variable {body text rest : List Char} {document : Json}

/-! ## Outside strings -/

/-- Where a character of a text stands: outside the strings, within one, or behind a backslash
within one. -/
inductive Place where
  | outside
  | inside
  | escaped

/-- The characters of a text that stand outside its strings. -/
def outsideStrings : Place → List Char → List Char
  | _, [] => []
  | .outside, c :: text =>
      if c = '"' then outsideStrings .inside text else c :: outsideStrings .outside text
  | .inside, c :: text =>
      if c = '"' then outsideStrings .outside text
      else if c = '\\' then outsideStrings .escaped text
      else outsideStrings .inside text
  | .escaped, _ :: text => outsideStrings .inside text

def brackets : List Char := ['(', ')', '[', ']', '\x7b', '\x7d']

/-- Neither a bracket nor a quote, which would start a string. -/
def IsPlain (c : Char) : Prop := c ∉ '"' :: brackets

instance (c : Char) : Decidable (IsPlain c) := inferInstanceAs (Decidable (_ ∉ _))

theorem outsideStrings_append (h : ∀ c ∈ text, IsPlain c) (rest : List Char) :
    outsideStrings .outside (text ++ rest) = text ++ outsideStrings .outside rest := by
  induction text with
  | nil => rfl
  | cons c text ih =>
      obtain ⟨hc, htext⟩ := List.forall_mem_cons.mp h
      rw [List.cons_append, outsideStrings, if_neg (List.ne_of_not_mem_cons hc), ih htext,
        List.cons_append]

theorem outsideStrings_inside_cons {c : Char} (hquote : c ≠ '"') (hescape : c ≠ '\\') :
    outsideStrings .inside (c :: text) = outsideStrings .inside text := by
  rw [outsideStrings, if_neg hquote, if_neg hescape]

/-- The digits of an escape end no string. -/
theorem outsideStrings_numeric {a b c d : Char} {code : Nat} (h : hexCode? a b c d = some code) :
    outsideStrings .inside ('\\' :: 'u' :: a :: b :: c :: d :: text) =
      outsideStrings .inside text := by
  have hskip : ∀ {x n}, hexValue? x = some n → ∀ text,
      outsideStrings .inside (x :: text) = outsideStrings .inside text := fun hx text =>
    outsideStrings_inside_cons (ne_of_hexValue? hx).2.1 (ne_of_hexValue? hx).2.2
  obtain ⟨ha, hb, hc, hd⟩ := forall_of_hexCode? (P := fun c => ∀ text,
    outsideStrings .inside (c :: text) = outsideStrings .inside text) h hskip
  have hescape : ∀ text, outsideStrings .inside ('\\' :: 'u' :: text) =
      outsideStrings .inside text := fun _ => rfl
  rw [hescape, ha, hb, hc, hd]

theorem outsideStrings_spells (h : Spells body text) (rest : List Char) :
    outsideStrings .inside (body ++ '"' :: rest) = outsideStrings .outside rest := by
  induction h with
  | nil => rfl
  | plain hquote hescape hcontrol h ih =>
      rw [List.cons_append, outsideStrings_inside_cons hquote hescape, ih]
  | short hletter h ih => exact ih
  | code hcode hscalar h ih =>
      simp only [List.cons_append]
      rw [outsideStrings_numeric hcode, ih]
  | surrogates hhigh hlow hpair h ih =>
      simp only [List.cons_append]
      rw [outsideStrings_numeric hhigh, outsideStrings_numeric hlow, ih]

theorem isPlain_of_numberChar {c : Char} (h : c.isDigit = true ∨ c ∈ ['-', '+', '.', 'e', 'E']) :
    IsPlain c := by
  have hother : ∀ c ∈ '"' :: brackets, ¬(c.isDigit = true ∨ c ∈ ['-', '+', '.', 'e', 'E']) := by
    simp [brackets]
  exact fun hc => hother c hc h

theorem isPlain_of_isBlank {c : Char} (h : isBlank c = true) : IsPlain c := by
  have hother : ∀ c ∈ '"' :: brackets, isBlank c ≠ true := by simp [brackets, isBlank]
  exact fun hc => hother c hc h

theorem ScalarText.exists_outsideStrings (h : ScalarText text document) :
    ∃ plain, (∀ c ∈ plain, IsPlain c) ∧ ∀ rest,
      outsideStrings .outside (text ++ rest) = plain ++ outsideStrings .outside rest := by
  have hplain : ∀ {text : List Char}, (∀ c ∈ text, IsPlain c) →
      ∃ plain, (∀ c ∈ plain, IsPlain c) ∧ ∀ rest,
        outsideStrings .outside (text ++ rest) = plain ++ outsideStrings .outside rest :=
    fun h => ⟨_, h, outsideStrings_append h⟩
  cases h with
  | null => exact hplain (by simp [IsPlain, brackets])
  | bool b => cases b <;> exact hplain (by simp [IsPlain, brackets])
  | number h => exact hplain fun c hc => isPlain_of_numberChar (isDigit_or_mem_of_numberText h hc)
  | string h =>
      refine ⟨[], by simp, fun rest => ?_⟩
      have hspells := outsideStrings_spells h rest
      simpa [outsideStrings] using hspells

end Json

namespace Call

open Json

variable {text : List Char} {v : Value} {values : List Value}

theorem isPlain_of_argumentTexts (h : ArgumentTexts text values) :
    ∀ c ∈ outsideStrings .outside text, IsPlain c := by
  have hblank : ∀ {blanks : List Char}, AllBlank blanks → ∀ c ∈ blanks, IsPlain c :=
    fun h c hc => isPlain_of_isBlank (h c hc)
  induction h with
  | last hbefore h hafter =>
      obtain ⟨document, hscalar, -⟩ := h
      obtain ⟨plain, hplain, houtside⟩ := hscalar.exists_outsideStrings
      have hend := outsideStrings_append (hblank hafter) []
      rw [List.append_nil] at hend
      rw [outsideStrings_append (hblank hbefore), houtside, hend]
      simp only [List.forall_mem_append]
      exact ⟨hblank hbefore, hplain, hblank hafter, by simp [outsideStrings]⟩
  | @next before text after more v values hbefore h hafter hmore ih =>
      obtain ⟨document, hscalar, -⟩ := h
      obtain ⟨plain, hplain, houtside⟩ := hscalar.exists_outsideStrings
      have hcomma : outsideStrings .outside (',' :: more) = ',' :: outsideStrings .outside more := rfl
      rw [outsideStrings_append (hblank hbefore), houtside, outsideStrings_append (hblank hafter),
        hcomma]
      simp only [List.forall_mem_append, List.forall_mem_cons]
      exact ⟨hblank hbefore, hplain, hblank hafter, by decide, ih⟩

theorem isPlain_of_argumentList (h : ArgumentList text values) :
    ∀ c ∈ outsideStrings .outside text, IsPlain c := by
  rcases h with ⟨hblank, -⟩ | htexts
  · have hplain : ∀ c ∈ text, IsPlain c := fun c hc => isPlain_of_isBlank (hblank c hc)
    have houtside := outsideStrings_append hplain []
    rw [List.append_nil] at houtside
    rw [houtside]
    simpa [outsideStrings] using hplain
  · exact isPlain_of_argumentTexts htexts

/-! ## Written arguments -/

theorem scalarText_jsonText (v : Value) : ScalarText v.jsonText.toList v.toJson := by
  rw [Value.jsonText, pretty, String.toList_ofList]
  cases v with
  | null => exact .null
  | bool b =>
      cases b with
      | false => exact .bool false
      | true => exact .bool true
  | int i => exact .number (NumberLiteral.numberText_toChars (Value.wellFormed_toJson (.int i)))
  | float x =>
      cases x with
      | finite negative m =>
          exact .number (NumberLiteral.numberText_toChars
            (Value.wellFormed_toJson (.float (.finite negative m))))
      | nan => exact .null
      | infinity negative => exact .null
  | string s => exact scalarText_quoted s

theorem isArgument_jsonText (h : ∀ x ∈ v.floats, x.ReadsBack) : IsArgument v.jsonText.toList v :=
  ⟨v.toJson, scalarText_jsonText v, Value.ofJson?_toJson_iff.mpr h⟩

theorem argumentTexts_blank_cons (h : ArgumentTexts text values) :
    ArgumentTexts (' ' :: text) values := by
  have hblank : ∀ {before : List Char}, AllBlank before → AllBlank (' ' :: before) :=
    fun h => List.forall_mem_cons.mpr ⟨rfl, h⟩
  cases h with
  | last hbefore h hafter => exact .last (hblank hbefore) h hafter
  | next hbefore h hafter hmore => exact .next (hblank hbefore) h hafter hmore

def argumentChars (values : List Value) : List Char :=
  [',', ' '].intercalate (values.map fun v => v.jsonText.toList)

theorem argumentChars_cons_cons (v w : Value) (values : List Value) :
    argumentChars (v :: w :: values) =
      v.jsonText.toList ++ ',' :: ' ' :: argumentChars (w :: values) := by
  simp [argumentChars, List.intercalate_cons_cons]

theorem argumentTexts_argumentChars (hne : values ≠ [])
    (h : ∀ v ∈ values, ∀ x ∈ v.floats, x.ReadsBack) :
    ArgumentTexts (argumentChars values) values := by
  induction values with
  | nil => exact absurd rfl hne
  | cons v values ih =>
      obtain ⟨hv, hvalues⟩ := List.forall_mem_cons.mp h
      cases values with
      | nil =>
          have hlast := ArgumentTexts.last allBlank_nil (isArgument_jsonText hv) allBlank_nil
          simpa [argumentChars] using hlast
      | cons w values =>
          have hmore := argumentTexts_blank_cons (ih (List.cons_ne_nil w values) hvalues)
          rw [argumentChars_cons_cons]
          exact .next allBlank_nil (isArgument_jsonText hv) allBlank_nil hmore

theorem argumentList_argumentChars (h : ∀ v ∈ values, ∀ x ∈ v.floats, x.ReadsBack) :
    ArgumentList (argumentChars values) values := by
  by_cases hempty : values = []
  · subst hempty
    exact .inl ⟨allBlank_nil, rfl⟩
  · exact .inr (argumentTexts_argumentChars hempty h)

/-- Arguments are written on one line: a line feed in a string is escaped. -/
theorem newline_notMem_argumentChars (values : List Value) : '\n' ∉ argumentChars values := by
  have hvalue : ∀ v : Value, '\n' ∉ v.jsonText.toList := fun v hmem =>
    absurd ((scalarText_jsonText v).le_toNat _ hmem) (by decide)
  induction values with
  | nil => exact List.not_mem_nil
  | cons v values ih =>
      cases values with
      | nil => simpa [argumentChars] using hvalue v
      | cons w values =>
          rw [argumentChars_cons_cons]
          simp [hvalue v, ih]

theorem toList_toText (call : Call) :
    call.toText.toList = call.method.toList ++ '(' :: (argumentChars call.arguments ++ [')']) := by
  simp [toText, argumentChars, String.toList_intercalate, Function.comp_def]

theorem layout_toText {call : Call} (h : isName call.method.toList = true) :
    Layout call.toText.toList call.method.toList [] (argumentChars call.arguments) where
  line_eq := toList_toText call
  name := h
  gap := by simp
  oneLine := newline_notMem_argumentChars call.arguments

/-! ## Reading calls -/

/-- A line is read as a call exactly when it is laid out as the call, in the one way that it can be
laid out; it is refused for any bracket that stands among the arguments outside a string; and what
is written of a call is read as the call. -/
theorem ofText_exact :
    (∀ line call, ofText line = .ok call ↔ ∃ gap inner,
      Layout line.toList call.method.toList gap inner ∧ ArgumentList inner call.arguments) ∧
    (∀ {line name gap inner name' gap' inner' : List Char}, Layout line name gap inner →
      Layout line name' gap' inner' → name' = name ∧ gap' = gap ∧ inner' = inner) ∧
    (∀ {line : String} {name gap inner : List Char}, Layout line.toList name gap inner →
      (∃ c ∈ outsideStrings .outside inner, c ∈ brackets) →
        ofText line = .error (.badArguments line)) ∧
    (∀ call : Call, isName call.method.toList = true →
      (∀ v ∈ call.arguments, ∀ x ∈ v.floats, x.ReadsBack) → ofText call.toText = .ok call) := by
  refine ⟨fun line call => ofText_eq_ok_iff, layout_unique, ?_, fun call hname hfloats => ?_⟩
  · rintro line name gap inner hlayout ⟨c, hc, hbracket⟩
    rw [ofText_of_layout hlayout]
    cases hvalues : arguments? inner with
    | none => rfl
    | some values =>
        have hplain := isPlain_of_argumentList (arguments?_eq_some_iff.mp hvalues) c hc
        exact absurd (List.mem_cons_of_mem _ hbracket) hplain
  · exact ofText_eq_ok_iff.mpr
      ⟨[], _, layout_toText hname, argumentList_argumentChars hfloats⟩

/-- Brackets of an array in the text of the arguments do not part them, and within a string they
are read as they are. -/
theorem ofText_exact_tag :
    Layout "tag (1],[2)".toList "tag".toList [' '] "1],[2".toList ∧
      ofText "tag (1],[2)" = .error (.badArguments "tag (1],[2)") ∧
      (∀ {name gap inner}, Layout "tag (1],[2)".toList name gap inner →
        name = "tag".toList ∧ gap = [' '] ∧ inner = "1],[2".toList) ∧
      ofText (Call.toText ⟨"tag", [.string "(]\"\n", .int (-7), .null, .float .zero]⟩) =
        .ok ⟨"tag", [.string "(]\"\n", .int (-7), .null, .float .zero]⟩ := by
  have hlayout : Layout "tag (1],[2)".toList "tag".toList [' '] "1],[2".toList :=
    ⟨by decide, by decide, by simp [isGap], by decide⟩
  obtain ⟨-, hunique, hrefused, hwritten⟩ := ofText_exact
  exact ⟨hlayout, hrefused hlayout ⟨']', by decide, by decide⟩, hunique hlayout,
    hwritten _ (by decide) (by decide +kernel)⟩

end Call

end MethodSynthesis
