import MethodSynthesis.Proofs.CapitalizedTokens
import MethodSynthesis.Proofs.RoundTrip

/-!
# Names that collide

What the writing methods of a name in ASCII keep of it is its outline: its letters and digits without
their case, and which of the letters start a word. The boundaries of tokens are no part of it, and a
getter, which shows where the first token ends, still tells all of the outline: in its name the
letters behind digits need only be put into upper case again.
-/

namespace MethodSynthesis

namespace Naming

open Text

variable {text token : List Char} {c : Char}

/-! ## Outlines -/

def withBefore (before : Option Char) (text : List Char) : List (Option Char × Char) :=
  (before :: text.map some).zip text

/-- A letter that begins the text or has no letter right before it. -/
def startsWord (p : Option Char × Char) : Bool := p.2.isAlpha && !p.1.any Char.isAlpha

def alphanumericsWithBefore (text : List Char) : List (Option Char × Char) :=
  (withBefore none text).filter fun p => isAlphanumeric p.2

/-- Which of the letters and digits of a text are letters that start a word. -/
def wordStarts (text : List Char) : List Bool := (alphanumericsWithBefore text).map startsWord

/-- Without all other characters the texts agree but for case, and the same letters start words. -/
structure SameOutline (a b : List Char) : Prop where
  characters : (a.filter isAlphanumeric).map Char.toLower = (b.filter isAlphanumeric).map Char.toLower
  wordStarts : wordStarts a = wordStarts b

theorem map_snd_withBefore (before : Option Char) (text : List Char) :
    (withBefore before text).map Prod.snd = text := by
  induction text generalizing before with
  | nil => rfl
  | cons c text ih => exact congrArg (List.cons c) (ih (some c))

theorem map_snd_alphanumericsWithBefore (text : List Char) :
    (alphanumericsWithBefore text).map Prod.snd = text.filter isAlphanumeric := by
  conv_rhs => rw [← map_snd_withBefore none text, List.filter_map]
  rfl

def recased (starts : Bool) (c : Char) : Char := if starts then c.toUpper else c.toLower

theorem form_eq_recased (behindLetter : Bool) (hc : c.toNat < 128) :
    form behindLetter c = [recased (c.isAlpha && !behindLetter) c] := by
  rw [form_of_ascii behindLetter hc]
  by_cases halpha : c.isAlpha = true
  · cases behindLetter <;> simp [recased, halpha]
  · obtain ⟨hlower, hupper⟩ := case_of_not_isAlpha halpha
    simp [recased, halpha, hlower, hupper]

theorem titleCaseAfter_of_ascii (before : Option Char) (hascii : ∀ c ∈ text, c.toNat < 128) :
    titleCaseAfter (before.any Char.isAlpha) text =
      (withBefore before text).map fun p => recased (startsWord p) p.2 := by
  induction text generalizing before with
  | nil => rfl
  | cons c text ih =>
      obtain ⟨hc, htext⟩ := List.forall_mem_cons.mp hascii
      rw [titleCaseAfter_cons, form_eq_recased _ hc, isLetter_of_ascii hc]
      exact congrArg (List.cons _) (ih (some c) htext)

theorem recased_spec (starts : Bool) (hstarts : starts = true → c.isAlpha = true) :
    (recased starts c).toLower = c.toLower ∧ (recased starts c).isUpper = starts ∧
      recased starts c.toLower = recased starts c := by
  cases starts with
  | true => simp [recased, hstarts rfl]
  | false => simp [recased]

theorem isAlphanumeric_recased (starts : Bool) (c : Char) :
    isAlphanumeric (recased starts c) = isAlphanumeric c := by
  rw [isAlphanumeric_eq_isAlphanum, isAlphanumeric_eq_isAlphanum]
  cases starts <;> simp [recased, Char.isAlphanum, isDigit_toLower, isDigit_toUpper]

theorem isAlpha_of_startsWord {p : Option Char × Char} (h : startsWord p = true) :
    p.2.isAlpha = true :=
  (Bool.and_eq_true_iff.mp h).1

theorem filter_titleCase_of_ascii (hascii : ∀ c ∈ text, c.toNat < 128) :
    (titleCase text).filter isAlphanumeric =
      (alphanumericsWithBefore text).map fun p => recased (startsWord p) p.2 := by
  have htitle : titleCase text = _ := titleCaseAfter_of_ascii none hascii
  rw [htitle, List.filter_map, alphanumericsWithBefore]
  exact congrArg (List.map _) (List.filter_congr fun p _ => isAlphanumeric_recased _ _)

theorem map_toLower_titleCase (hascii : ∀ c ∈ text, c.toNat < 128) :
    ((titleCase text).filter isAlphanumeric).map Char.toLower =
      (text.filter isAlphanumeric).map Char.toLower := by
  rw [filter_titleCase_of_ascii hascii, ← map_snd_alphanumericsWithBefore, List.map_map,
    List.map_map]
  exact List.map_congr_left fun p hp =>
    (recased_spec _ isAlpha_of_startsWord).1

theorem map_isUpper_titleCase (hascii : ∀ c ∈ text, c.toNat < 128) :
    ((titleCase text).filter isAlphanumeric).map Char.isUpper = wordStarts text := by
  rw [filter_titleCase_of_ascii hascii, List.map_map]
  exact List.map_congr_left fun p hp =>
    (recased_spec _ isAlpha_of_startsWord).2.1

theorem filter_titleCase_eq_zipWith (hascii : ∀ c ∈ text, c.toNat < 128) :
    (titleCase text).filter isAlphanumeric =
      List.zipWith recased (wordStarts text) ((text.filter isAlphanumeric).map Char.toLower) := by
  rw [filter_titleCase_of_ascii hascii, ← map_snd_alphanumericsWithBefore, wordStarts,
    List.map_map, List.zipWith_map, List.zipWith_self]
  exact List.map_congr_left fun p hp =>
    (recased_spec _ isAlpha_of_startsWord).2.2.symm

/-- Texts in ASCII have the same letters and digits in their title cases exactly when their outlines
are the same: an outline can be read off the title case, and the title case be made of it. -/
theorem filter_titleCase_eq_iff {a b : List Char} (ha : ∀ c ∈ a, c.toNat < 128)
    (hb : ∀ c ∈ b, c.toNat < 128) :
    (titleCase a).filter isAlphanumeric = (titleCase b).filter isAlphanumeric ↔ SameOutline a b := by
  constructor
  · intro heq
    refine ⟨?_, ?_⟩
    · rw [← map_toLower_titleCase ha, heq, map_toLower_titleCase hb]
    · rw [← map_isUpper_titleCase ha, heq, map_isUpper_titleCase hb]
  · intro hsame
    rw [filter_titleCase_eq_zipWith ha, filter_titleCase_eq_zipWith hb, hsame.characters,
      hsame.wordStarts]

example : ¬SameOutline "gridsize".toList "grid size".toList :=
  fun h => absurd h.wordStarts (by decide)

/-! ## The outline in the name of a getter -/

/-- Puts every character into upper case that stands behind no letter. -/
def capitalizeStarts (behindLetter : Bool) : List Char → List Char
  | [] => []
  | c :: rest => (if behindLetter then c else c.toUpper) :: capitalizeStarts c.isAlpha rest

/-- A token is recovered from a text that differs from it in case alone, and nowhere where a letter
of the text stands behind a letter. -/
theorem capitalizeStarts_map_append {f : Char → Char} (behindLetter : Bool)
    (hf : ∀ c : Char, (f c).isAlpha = c.isAlpha ∧ (f c).toUpper = c.toUpper ∧
      (c.isLower = true ∨ c.isAlpha = false → f c = c))
    (halphanumeric : ∀ c ∈ token, isAlphanumeric c = true) (hchain : List.IsChain Follows token)
    (hhead : ∀ c ∈ token.head?, if behindLetter then f c = c else c.isLower = false) :
    ∃ behind, ∀ rest, capitalizeStarts behindLetter (token.map f ++ rest) =
      token ++ capitalizeStarts behind rest := by
  induction token generalizing behindLetter with
  | nil => exact ⟨behindLetter, fun rest => rfl⟩
  | cons c token ih =>
      obtain ⟨hc, htoken⟩ := List.forall_mem_cons.mp halphanumeric
      obtain ⟨hnext, hrest⟩ := List.isChain_cons.mp hchain
      obtain ⟨hletter, hsame, -⟩ := hf c
      obtain ⟨behind, hbehind⟩ := ih c.isAlpha htoken hrest fun d hd => by
        have hd' : isAlphanumeric d = true := htoken d (List.mem_of_mem_head? hd)
        cases halpha : d.isAlpha with
        | true =>
            have hcase := hnext d hd hc halpha
            cases hbehind : c.isAlpha with
            | true => exact (hf d).2.2 (Or.inl (hcase.trans hbehind))
            | false => exact hcase.trans hbehind
        | false =>
            have hsmall : d.isLower = false := Bool.eq_false_iff.mpr fun hsmall => by
              rw [isAlpha_iff_isUpper_or_isLower.mpr (Or.inr hsmall)] at halpha
              cases halpha
            split
            · exact (hf d).2.2 (Or.inr halpha)
            · exact hsmall
      refine ⟨behind, fun rest => ?_⟩
      have hfirst : (if behindLetter then f c else (f c).toUpper) = c := by
        have hc' := hhead c rfl
        cases behindLetter with
        | true => exact hc'
        | false => exact hsame.trans (Char.toUpper_eq_of_not_isLower (Bool.eq_false_iff.mp hc'))
      rw [List.map_cons, List.cons_append, capitalizeStarts, hfirst, hletter, hbehind]
      rfl

theorem capitalizeStarts_flatten {tokens : List (List Char)}
    (htokens : ∀ token ∈ tokens,
      IsToken token ∧ List.IsChain Follows token ∧ StartsCapitalized token)
    (behindLetter : Bool) : capitalizeStarts behindLetter tokens.flatten = tokens.flatten := by
  induction tokens generalizing behindLetter with
  | nil => rfl
  | cons token tokens ih =>
      obtain ⟨⟨htoken, hchain, hstarts⟩, hothers⟩ := List.forall_mem_cons.mp htokens
      obtain ⟨behind, hbehind⟩ := capitalizeStarts_map_append (f := id) behindLetter
        (fun c => ⟨rfl, rfl, fun _ => rfl⟩) htoken.alphanumeric hchain fun c hc => by
          split
          · rfl
          · exact htoken.isLower_head hstarts c hc
      rw [List.map_id] at hbehind
      rw [List.flatten_cons, hbehind, ih hothers]

end Naming

namespace MethodNames

open Naming

variable {a b : String} {names others : MethodNames}

theorem toList_pascal (h : derive? a = some names) :
    names.pascal.toList = (titleCase a.toList).filter isAlphanumeric := by
  rw [pascal, String.toList_ofList, ← tokens_of_derive? h]
  exact flatten_alphanumericRuns _

/-- Of a name in ASCII the pascal form can be made of the camel form. -/
theorem capitalizeStarts_camel (h : derive? a = some names) (hascii : ∀ c ∈ a.toList, c.toNat < 128) :
    capitalizeStarts false names.camel.toList = names.pascal.toList := by
  have htokens : ∀ token ∈ names.tokens,
      IsToken token ∧ List.IsChain Follows token ∧ StartsCapitalized token := by
    rw [← tokens_of_derive? h]
    exact fun token htoken => ⟨isToken_of_mem_alphanumericRuns htoken,
      isChain_of_mem_tokenize htoken, startsCapitalized_of_ascii hascii token htoken⟩
  obtain ⟨⟨hfirst, hchain, hstarts⟩, hrest⟩ := List.forall_mem_cons.mp htokens
  have hlower : ∀ c : Char, c.toLower.isAlpha = c.isAlpha ∧
      c.toLower.toUpper = c.toUpper ∧ (c.isLower = true ∨ c.isAlpha = false → c.toLower = c) := by
    refine fun c => ⟨Char.isAlpha_toLower_eq_isAlpha c, Char.toUpper_toLower_eq_toUpper c, ?_⟩
    refine fun hcase => Char.toLower_eq_of_not_isUpper fun hcapital => ?_
    rcases hcase with hsmall | hnone
    · exact Char.not_isLower_of_isUpper hcapital hsmall
    · rw [isAlpha_iff_isUpper_or_isLower.mpr (Or.inl hcapital)] at hnone
      cases hnone
  obtain ⟨behind, hbehind⟩ := capitalizeStarts_map_append (f := Char.toLower) false
    hlower hfirst.alphanumeric hchain fun c hc => hfirst.isLower_head hstarts c hc
  rw [camel, pascal, String.toList_ofList, String.toList_ofList, tokens, List.flatten_cons, hbehind,
    capitalizeStarts_flatten hrest]

theorem method_eq_iff_pascal_eq {kind : MethodKind} (hkind : ¬kind.IsGetter) (verbs : NamingVerbs) :
    names.method kind verbs = others.method kind verbs ↔ names.pascal = others.pascal := by
  cases kind with
  | setValue => exact String.append_right_inj _
  | enable => exact String.append_right_inj _
  | setDiscreteIndex => exact (String.append_left_inj _).trans (String.append_right_inj _)
  | value => exact absurd trivial hkind
  | isEnabled => exact absurd trivial hkind
  | discreteIndex => exact absurd trivial hkind

/-- The writing methods of two names in ASCII collide exactly when the names have the same outline,
each kind under any verbs; and they do collide when the getters do. -/
theorem pascal_eq_iff_sameOutline (hnames : derive? a = some names)
    (hothers : derive? b = some others) (ha : ∀ c ∈ a.toList, c.toNat < 128)
    (hb : ∀ c ∈ b.toList, c.toNat < 128) :
    (names.pascal = others.pascal ↔ SameOutline a.toList b.toList) ∧
      (∀ kind verbs, ¬kind.IsGetter →
        (names.method kind verbs = others.method kind verbs ↔ SameOutline a.toList b.toList)) ∧
      (names.camel = others.camel → names.pascal = others.pascal) := by
  have hpascal : names.pascal = others.pascal ↔ SameOutline a.toList b.toList := by
    rw [← String.toList_inj, toList_pascal hnames, toList_pascal hothers]
    exact filter_titleCase_eq_iff ha hb
  refine ⟨hpascal, fun kind verbs hkind => (method_eq_iff_pascal_eq hkind verbs).trans hpascal,
    fun hcamel => ?_⟩
  rw [← String.toList_inj, ← capitalizeStarts_camel hnames ha, hcamel,
    capitalizeStarts_camel hothers hb]

/-- Three names with the same outline; the tokens of the first one end at other places. -/
theorem pascal_eq_iff_sameOutline_mesh :
    ∃ names others more, derive? "3 d mesh" = some names ∧ derive? "3d-MESH" = some others ∧
      derive? "3D mesh" = some more ∧ names.camel ≠ others.camel ∧ names.pascal = others.pascal ∧
      names.method .setDiscreteIndex { set := "choose" } =
        others.method .setDiscreteIndex { set := "choose" } ∧
      others.camel = more.camel ∧ others.pascal = more.pascal := by
  obtain ⟨hnames, hothers, hmore⟩ :
      derive? "3 d mesh" = some ⟨['3'], [['D'], "Mesh".toList]⟩ ∧
        derive? "3d-MESH" = some ⟨"3D".toList, ["Mesh".toList]⟩ ∧
        derive? "3D mesh" = some ⟨"3D".toList, ["Mesh".toList]⟩ := by decide +kernel
  have hsame : SameOutline "3 d mesh".toList "3d-MESH".toList := ⟨by decide, by decide⟩
  obtain ⟨hpascal, hmethods, -⟩ :=
    pascal_eq_iff_sameOutline hnames hothers (by simp) (by simp)
  obtain ⟨-, -, hcamel⟩ := pascal_eq_iff_sameOutline hothers hmore (by simp) (by simp)
  exact ⟨_, _, _, hnames, hothers, hmore, by decide, hpascal.mpr hsame,
    (hmethods .setDiscreteIndex _ id).mpr hsame, rfl, hcamel rfl⟩

end MethodNames

end MethodSynthesis
