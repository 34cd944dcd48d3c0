import Mathlib.Data.List.Chain
import MethodSynthesis.Proofs.MaximalRuns

/-!
# The case of letters within tokens

Within a token the case of every letter is right: it is small behind a letter and capital behind a
digit. Only of the first character nothing is said. Tokenizing the tokens again therefore changes at
most their first letters, and leaves a token alone exactly when it starts with a capital or a digit.
-/

namespace MethodSynthesis

namespace Naming

open Text

variable {text token : List Char} {c d : Char} {name : String}

/-! ## Case within the title case -/

/-- Right behind a letter or digit a letter is small if it stands behind a letter, and capital if it
stands behind a digit. -/
def Follows (c d : Char) : Prop :=
  isAlphanumeric c = true → d.isAlpha = true → d.isLower = c.isAlpha

theorem isAlphanumeric_of_isAlpha (h : c.isAlpha = true) : isAlphanumeric c = true :=
  isAlphanumeric_iff.mpr (Or.inl h)

theorem isChain_small (hfirst : isAlphanumeric c = true → c.isAlpha = true)
    (hrest : ∀ d ∈ text, isAlphanumeric d = true → d.isLower = true) :
    List.IsChain Follows (c :: text) := by
  induction text generalizing c with
  | nil => exact List.IsChain.singleton c
  | cons d text ih =>
      obtain ⟨hd, htext⟩ := List.forall_mem_cons.mp hrest
      refine List.isChain_cons_cons.mpr ⟨fun hc halpha => ?_, ih (fun halphanumeric => ?_) htext⟩
      · rw [hfirst hc, hd (isAlphanumeric_of_isAlpha halpha)]
      · exact isAlpha_iff_isUpper_or_isLower.mpr (Or.inr (hd halphanumeric))

theorem isChain_form (behindLetter : Bool) (c : Char) :
    List.IsChain Follows (form behindLetter c) := by
  by_cases hletter : isLetter c = true
  · obtain ⟨first, rest, hform⟩ := List.exists_cons_of_ne_nil (form_ne_nil behindLetter c)
    rw [hform]
    have hfirst : first ∈ form behindLetter c := by simp [hform]
    have hrest : (form behindLetter c).tail = rest := by simp [hform]
    rw [← hrest]
    exact isChain_small (isAlpha_of_mem_form hletter hfirst) fun d => isLower_tail_form hletter
  · rw [form, if_neg hletter]
    exact List.IsChain.singleton c

theorem follows_forms {behindLetter : Bool} {x y : Char}
    (hx : x ∈ (form behindLetter c).getLast?) (hy : y ∈ (form (isLetter c) d).head?) :
    Follows x y := by
  intro halphanumeric halpha
  have hletter : isLetter d = true := by
    by_contra hnot
    rw [form, if_neg hnot] at hy
    obtain rfl : d = y := by simpa using hy
    rw [isLetter_of_ascii (lt_of_isAlphanumeric (isAlphanumeric_of_isAlpha halpha)).2] at hnot
    exact hnot halpha
  rw [(case_head_form hletter hy (isAlphanumeric_of_isAlpha halpha)).2]
  by_cases hc : isLetter c = true
  · rw [hc, isAlpha_of_mem_form hc (List.mem_of_mem_getLast? hx) halphanumeric]
  · rw [form, if_neg hc] at hx
    obtain rfl : c = x := by simpa using hx
    exact isLetter_of_ascii (lt_of_isAlphanumeric halphanumeric).2

theorem isChain_titleCaseAfter (behindLetter : Bool) (text : List Char) :
    List.IsChain Follows (titleCaseAfter behindLetter text) := by
  induction text generalizing behindLetter with
  | nil => exact List.IsChain.nil
  | cons c text ih =>
      rw [titleCaseAfter_cons]
      refine List.isChain_append.mpr ⟨isChain_form behindLetter c, ih _, fun x hx y hy => ?_⟩
      cases text with
      | nil => cases hy
      | cons d text =>
          rw [titleCaseAfter_cons, List.head?_append_of_ne_nil _ (form_ne_nil _ d)] at hy
          exact follows_forms hx hy

theorem isChain_of_mem_tokenize (h : token ∈ tokenize name) : List.IsChain Follows token := by
  obtain ⟨s, hs, rfl⟩ := mem_alphanumericRuns_iff.mp h
  refine List.IsChain.infix (isChain_titleCaseAfter false name.toList) ⟨s.front, s.back, ?_⟩
  rw [List.append_assoc]
  exact hs.text_eq.symm

/-! ## The title case of a token -/

def StartsCapitalized (token : List Char) : Prop :=
  token.head?.any (fun c => c.isUpper || c.isDigit) = true

instance (token : List Char) : Decidable (StartsCapitalized token) :=
  inferInstanceAs (Decidable (_ = true))

theorem startsCapitalized_cons :
    StartsCapitalized (c :: text) ↔ c.isUpper = true ∨ c.isDigit = true := by
  simp [StartsCapitalized]

theorem not_startsCapitalized_cons (hc : isAlphanumeric c = true) :
    ¬StartsCapitalized (c :: text) ↔ c.isLower = true := by
  rw [startsCapitalized_cons]
  rw [isAlphanumeric_iff, isAlpha_iff_isUpper_or_isLower, isUpper_iff, isLower_iff, isDigit_iff] at hc
  rw [isUpper_iff, isLower_iff, isDigit_iff]
  have hval : c.val.toNat = c.toNat := rfl
  omega

theorem IsToken.isLower_head (htoken : IsToken token) (hstarts : StartsCapitalized token) :
    ∀ c ∈ token.head?, c.isLower = false := by
  intro c hc
  obtain ⟨rest, rfl⟩ : ∃ rest, token = c :: rest := ⟨_, (List.cons_head?_tail hc).symm⟩
  exact Bool.eq_false_iff.mpr fun hsmall =>
    (not_startsCapitalized_cons (htoken.alphanumeric c List.mem_cons_self)).mpr hsmall hstarts

theorem form_of_case {behindLetter : Bool} (hc : isAlphanumeric c = true)
    (hcase : c.isAlpha = true → c.isLower = behindLetter) : form behindLetter c = [c] := by
  rw [form_of_ascii behindLetter (lt_of_isAlphanumeric hc).2]
  cases behindLetter with
  | true =>
      have hcapital : ¬c.isUpper = true := fun hcapital =>
        Char.not_isLower_of_isUpper hcapital
          (hcase (isAlpha_iff_isUpper_or_isLower.mpr (Or.inl hcapital)))
      rw [if_pos rfl, Char.toLower_eq_of_not_isUpper hcapital]
  | false =>
      have hsmall : ¬c.isLower = true := fun hsmall => by
        rw [hcase (isAlpha_iff_isUpper_or_isLower.mpr (Or.inr hsmall))] at hsmall
        cases hsmall
      rw [if_neg Bool.false_ne_true, Char.toUpper_eq_of_not_isLower hsmall]

theorem titleCaseAfter_of_isChain {behindLetter : Bool}
    (halphanumeric : ∀ c ∈ text, isAlphanumeric c = true) (hchain : List.IsChain Follows text)
    (hhead : ∀ c ∈ text.head?, c.isAlpha = true → c.isLower = behindLetter) :
    titleCaseAfter behindLetter text = text := by
  induction text generalizing behindLetter with
  | nil => rfl
  | cons c text ih =>
      obtain ⟨hc, htext⟩ := List.forall_mem_cons.mp halphanumeric
      obtain ⟨hnext, hrest⟩ := List.isChain_cons.mp hchain
      have hform : form behindLetter c = [c] := form_of_case hc (hhead c rfl)
      have hgoesOn : titleCaseAfter (isLetter c) text = text := by
        refine ih htext hrest fun d hd halpha => ?_
        rw [isLetter_of_ascii (lt_of_isAlphanumeric hc).2]
        exact hnext d hd hc halpha
      rw [titleCaseAfter_cons, hform, hgoesOn]
      rfl

/-- A token of a name is its own title case if it starts as it should, and only then. -/
theorem titleCase_eq_self_iff (h : token ∈ tokenize name) :
    titleCase token = token ↔ StartsCapitalized token := by
  have htoken : IsToken token := isToken_of_mem_alphanumericRuns h
  have hchain := isChain_of_mem_tokenize h
  cases token with
  | nil => exact absurd rfl htoken.ne_nil
  | cons c text =>
      have hc : isAlphanumeric c = true := htoken.alphanumeric c List.mem_cons_self
      constructor
      · intro hfixed
        rw [titleCase, titleCaseAfter_cons] at hfixed
        have hhead : c ∈ (form false c).head? := by
          rw [← List.head?_append_of_ne_nil _ (form_ne_nil false c), hfixed]
          rfl
        by_contra hsmall
        rw [not_startsCapitalized_cons hc] at hsmall
        have hletter : isLetter c = true := by
          rw [isLetter_of_ascii (lt_of_isAlphanumeric hc).2]
          exact isAlpha_iff_isUpper_or_isLower.mpr (Or.inr hsmall)
        rw [(case_head_form hletter hhead hc).2] at hsmall
        cases hsmall
      · intro hstarts
        exact titleCaseAfter_of_isChain htoken.alphanumeric hchain fun x hx _ =>
          htoken.isLower_head hstarts x hx

/-! ## Tokenizing the tokens again -/

def joined (tokens : List (List Char)) : String := " ".intercalate (tokens.map String.ofList)

theorem toList_joined (tokens : List (List Char)) :
    (joined tokens).toList = [' '].intercalate tokens := by
  rw [joined, String.toList_intercalate, List.map_map]
  have hid : String.toList ∘ String.ofList = id := funext fun _ => String.toList_ofList
  rw [hid, List.map_id]
  rfl

theorem titleCase_append_blank (front back : List Char) :
    titleCase (front ++ [' '] ++ back) = titleCase front ++ [' '] ++ titleCase back := by
  have hblank : ∀ behindLetter, titleCaseAfter behindLetter (' ' :: back) =
      ' ' :: titleCase back := by
    have hletter : isLetter ' ' = false := by decide
    intro behindLetter
    simp [titleCaseAfter, hletter, titleCase]
  rw [List.append_assoc, titleCase, titleCaseAfter_append, List.singleton_append, hblank,
    List.append_assoc]
  rfl

theorem titleCase_intercalate (tokens : List (List Char)) :
    titleCase ([' '].intercalate tokens) = [' '].intercalate (tokens.map titleCase) := by
  induction tokens with
  | nil => rfl
  | cons token tokens ih =>
      cases tokens with
      | nil => simp
      | cons next tokens =>
          rw [List.intercalate_cons_cons, titleCase_append_blank, ih]
          simp only [List.map_cons, List.intercalate_cons_cons]

theorem splitRuns_append (h : ∀ c ∈ token, isAlphanumeric c = true) (text : List Char) :
    splitRuns (token ++ text) = (token ++ (splitRuns text).1, (splitRuns text).2) := by
  induction token with
  | nil => rfl
  | cons c token ih =>
      obtain ⟨hc, htoken⟩ := List.forall_mem_cons.mp h
      simp [splitRuns, hc, ih htoken]

theorem alphanumericRuns_intercalate {tokens : List (List Char)}
    (h : ∀ token ∈ tokens, IsToken token) :
    alphanumericRuns ([' '].intercalate tokens) = tokens := by
  have hblank : isAlphanumeric ' ' = false := by decide
  induction tokens with
  | nil => rfl
  | cons token tokens ih =>
      obtain ⟨htoken, htokens⟩ := List.forall_mem_cons.mp h
      cases tokens with
      | nil =>
          have hsplit := splitRuns_append htoken.alphanumeric []
          rw [List.append_nil] at hsplit
          simp [alphanumericRuns, hsplit, splitRuns, consRun, htoken.ne_nil]
      | cons next tokens =>
          rw [List.intercalate_cons_cons, List.append_assoc, alphanumericRuns,
            splitRuns_append htoken.alphanumeric]
          have hrest := ih htokens
          rw [alphanumericRuns] at hrest
          simp [splitRuns, hblank, consRun, htoken.ne_nil] at hrest ⊢
          exact hrest

theorem isToken_titleCase (h : IsToken token) : IsToken (titleCase token) := by
  refine ⟨fun hnil => ?_, fun d hd => ?_⟩
  · obtain ⟨c, text, rfl⟩ := List.exists_cons_of_ne_nil h.ne_nil
    rw [titleCase, titleCaseAfter_cons] at hnil
    exact form_ne_nil false c (List.append_eq_nil_iff.mp hnil).1
  · have hkeeps : ∀ behindLetter, ∀ d ∈ titleCaseAfter behindLetter token,
        isAlphanumeric d = true := by
      obtain ⟨-, halphanumeric⟩ := h
      clear hd
      induction token with
      | nil => exact fun _ _ hd => absurd hd List.not_mem_nil
      | cons c token ih =>
          obtain ⟨hc, htoken⟩ := List.forall_mem_cons.mp halphanumeric
          intro behindLetter d hd
          rw [titleCaseAfter_cons] at hd
          rcases List.mem_append.mp hd with hform | hrest
          · exact isAlphanumeric_of_mem_form hc hform
          · exact ih htoken _ d hrest
    exact hkeeps false d hd

/-- Tokenizing tokens again puts each of them into title case. -/
theorem tokenize_joined {tokens : List (List Char)} (h : ∀ token ∈ tokens, IsToken token) :
    tokenize (joined tokens) = tokens.map titleCase := by
  rw [tokenize, toList_joined, titleCase_intercalate]
  refine alphanumericRuns_intercalate fun token htoken => ?_
  obtain ⟨original, horiginal, rfl⟩ := List.mem_map.mp htoken
  exact isToken_titleCase (h original horiginal)

end Naming

end MethodSynthesis
