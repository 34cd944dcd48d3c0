import MethodSynthesis.Proofs.TokenCase

/-!
# Capitalized tokens

Title case goes by the letters of every script and tokens end where ASCII does, so a token starts
with a capital or a digit unless a word goes on into ASCII behind a form that ends outside of it.
The start of a token is traced back from the title case to the character of the name in whose form
it lies.
-/

namespace MethodSynthesis

namespace Naming

open Text

variable {text : List Char} {c d : Char} {name : String}

/-! ## Small letters at the start of a token -/

/-- A token starts as it should unless a small letter stands in the text with no letter or digit
right before it. -/
theorem exists_not_startsCapitalized_iff :
    (∃ token ∈ alphanumericRuns text, ¬StartsCapitalized token) ↔
      ∃ front d back, text = front ++ d :: back ∧ d.isLower = true ∧
        ∀ x ∈ front.getLast?, isAlphanumeric x = false := by
  constructor
  · rintro ⟨token, htoken, hstarts⟩
    obtain ⟨⟨front, run, back⟩, ⟨htext, hrun, hleft, -⟩, rfl⟩ := mem_alphanumericRuns_iff.mp htoken
    obtain ⟨d, rest, rfl⟩ := List.exists_cons_of_ne_nil hrun.ne_nil
    have hd := hrun.alphanumeric d List.mem_cons_self
    exact ⟨front, d, rest ++ back, htext, (not_startsCapitalized_cons hd).mp hstarts, hleft⟩
  · rintro ⟨front, d, back, rfl, hsmall, hleft⟩
    have hd : isAlphanumeric d = true :=
      isAlphanumeric_of_isAlpha (isAlpha_iff_isUpper_or_isLower.mpr (Or.inr hsmall))
    have hrun : (d :: back).takeWhile isAlphanumeric = d :: back.takeWhile isAlphanumeric :=
      List.takeWhile_cons_of_pos hd
    have hne : (Stretch.first (d :: back)).run ≠ [] := by
      rw [Stretch.first, hrun]
      exact List.cons_ne_nil _ _
    obtain ⟨⟨htext, htoken, -, hright⟩, -⟩ := Stretch.isMaximalRun_first_iff.mpr ⟨rfl, hne⟩
    refine ⟨d :: back.takeWhile isAlphanumeric, mem_alphanumericRuns_iff.mpr
      ⟨{ Stretch.first (d :: back) with front := front }, ?_, hrun⟩,
      (not_startsCapitalized_cons hd).mpr hsmall⟩
    exact ⟨congrArg (front ++ ·) htext, htoken, hleft, hright⟩

theorem exists_form_of_titleCaseAfter {behindLetter : Bool} {front back : List Char}
    (h : titleCaseAfter behindLetter text = front ++ d :: back) :
    ∃ before c after former latter, text = before ++ c :: after ∧
      form (endsInLetter behindLetter before) c = former ++ d :: latter ∧
      front = titleCaseAfter behindLetter before ++ former := by
  induction text generalizing behindLetter front with
  | nil => simp [titleCaseAfter] at h
  | cons c text ih =>
      rw [titleCaseAfter_cons] at h
      rcases List.append_eq_append_iff.mp h with ⟨middle, rfl, hrest⟩ | ⟨middle, hform, hrest⟩
      · obtain ⟨before, x, after, former, latter, rfl, hform, rfl⟩ := ih hrest
        refine ⟨c :: before, x, after, former, latter, rfl, ?_, ?_⟩
        · rw [endsInLetter_cons, hform]
        · rw [titleCaseAfter_cons, List.append_assoc]
      · cases middle with
        | nil =>
            -- The form ends right before the character, which is then the first of the next form.
            have hstart : titleCaseAfter (isLetter c) text = [] ++ d :: back := hrest.symm
            obtain ⟨before, x, after, former, latter, rfl, hnext, hbefore⟩ := ih hstart
            refine ⟨c :: before, x, after, former, latter, rfl, ?_, ?_⟩
            · rw [endsInLetter_cons, hnext]
            · rw [titleCaseAfter_cons, List.append_assoc, ← hbefore, hform, List.append_nil,
                List.append_nil]
        | cons e middle =>
            obtain ⟨rfl, -⟩ := List.cons.inj hrest
            exact ⟨[], c, text, front, middle, rfl, hform, rfl⟩

/-- A small letter has a letter or digit right before it. -/
def Joins (c d : Char) : Prop := d.isLower = true → isAlphanumeric c = true

instance (c d : Char) : Decidable (Joins c d) := inferInstanceAs (Decidable (_ → _))

theorem mapCase_cases (runs : List CaseRun) (expansions : List (Nat × List Nat)) (c : Char) :
    (∃ d, mapCase runs expansions c = [d]) ∨
      ∃ expansion ∈ expansions, c = Char.ofNat expansion.1 := by
  unfold mapCase
  split
  · rename_i codes hlookup
    obtain ⟨front, back, rfl, -⟩ := List.lookup_eq_some_iff.mp hlookup
    exact Or.inr ⟨_, List.mem_append_right _ List.mem_cons_self, (Char.ofNat_toNat c).symm⟩
  · exact Or.inl ⟨_, rfl⟩

/-- Within the form of a letter a small letter has a letter right before it, unless the form is that
of ŉ at the start of a word. -/
theorem isChain_joins_form {behindLetter : Bool} (hletter : isLetter c = true)
    (h : ¬(c = 'ŉ' ∧ behindLetter = false)) : List.IsChain Joins (form behindLetter c) := by
  obtain ⟨hlower, hupper⟩ : (∀ expansion ∈ lowerExpansions,
      List.IsChain Joins (toLower (Char.ofNat expansion.1))) ∧
      ∀ expansion ∈ upperExpansions, Char.ofNat expansion.1 = 'ŉ' ∨
        List.IsChain Joins (capitalized (Char.ofNat expansion.1)) := by decide +kernel
  rw [form, if_pos hletter]
  cases behindLetter with
  | true =>
      rcases mapCase_cases lowerRuns lowerExpansions c with ⟨d, hsingle⟩ | ⟨expansion, hmem, rfl⟩
      · rw [if_pos rfl, toLower, hsingle]
        exact List.IsChain.singleton d
      · exact hlower expansion hmem
  | false =>
      rcases mapCase_cases upperRuns upperExpansions c with ⟨d, hsingle⟩ | ⟨expansion, hmem, rfl⟩
      · rw [if_neg Bool.false_ne_true, capitalized, toUpper, hsingle]
        exact List.IsChain.singleton d
      · exact (hupper expansion hmem).resolve_left fun heq => h ⟨heq, rfl⟩

/-- A word of the name goes on into ASCII behind a form that ends outside of it: with a letter whose
lower case starts in ASCII, or within the form of ŉ at the start of a word. -/
def BreaksWord (text : List Char) : Prop :=
  (∃ front x c back, text = front ++ x :: c :: back ∧ isLetter x = true ∧ isLetter c = true ∧
    (∀ y ∈ (form (endsInLetter false front) x).getLast?, isAlphanumeric y = false) ∧
    ∃ d ∈ (toLower c).head?, isAlphanumeric d = true) ∨
  ∃ front back, text = front ++ 'ŉ' :: back ∧ endsInLetter false front = false

theorem endsInLetter_append_singleton (behindLetter : Bool) (front : List Char) (c : Char) :
    endsInLetter behindLetter (front ++ [c]) = isLetter c := by
  simp [endsInLetter]

theorem exists_letter_of_endsInLetter (h : endsInLetter false text = true) :
    ∃ front x, text = front ++ [x] ∧ isLetter x = true := by
  rcases List.eq_nil_or_concat' text with rfl | ⟨front, x, rfl⟩
  · cases h
  · rw [endsInLetter_append_singleton] at h
    exact ⟨front, x, rfl, h⟩

theorem getLast?_titleCase_append_singleton (front : List Char) (x : Char) :
    (titleCase (front ++ [x])).getLast? = (form (endsInLetter false front) x).getLast? := by
  have hform := form_ne_nil (endsInLetter false front) x
  rw [titleCase, titleCaseAfter_append, titleCaseAfter_cons, titleCaseAfter, List.append_nil,
    List.getLast?_append_of_ne_nil _ hform]

theorem breaksWord_iff :
    BreaksWord text ↔ ∃ front d back, titleCase text = front ++ d :: back ∧ d.isLower = true ∧
      ∀ x ∈ front.getLast?, isAlphanumeric x = false := by
  constructor
  · rintro (⟨front, x, c, back, rfl, hx, hc, hlast, d, hd, halphanumeric⟩ | ⟨front, back, rfl, hstart⟩)
    · obtain ⟨rest, hlower⟩ : ∃ rest, toLower c = d :: rest :=
        ⟨_, (List.cons_head?_tail hd).symm⟩
      refine ⟨titleCase (front ++ [x]), d, rest ++ titleCaseAfter (isLetter c) back, ?_,
        isLower_of_mem_toLower (isDigit_eq_false_of_isLetter hc) (List.mem_of_mem_head? hd)
          halphanumeric, ?_⟩
      · have hsplit : front ++ x :: c :: back = front ++ [x] ++ c :: back := by simp
        rw [hsplit, titleCase, titleCaseAfter_append, titleCaseAfter_cons,
          endsInLetter_append_singleton, hx, form, if_pos hc, if_pos rfl, hlower]
        rfl
      · rw [getLast?_titleCase_append_singleton]
        exact hlast
    · have hform : form false 'ŉ' = ['ʼ', 'n'] := by decide +kernel
      refine ⟨titleCase front ++ ['ʼ'], 'n', titleCaseAfter (isLetter 'ŉ') back, ?_, by decide, ?_⟩
      · rw [titleCase, titleCaseAfter_append, titleCaseAfter_cons, hstart, hform]
        simp [titleCase]
      · intro y hy
        obtain rfl : 'ʼ' = y := by simpa using hy
        decide
  · rintro ⟨front, d, back, htitle, hsmall, hlast⟩
    obtain ⟨before, c, after, former, latter, rfl, hform, rfl⟩ := exists_form_of_titleCaseAfter htitle
    have halpha : d.isAlpha = true := isAlpha_iff_isUpper_or_isLower.mpr (Or.inr hsmall)
    have halphanumeric := isAlphanumeric_of_isAlpha halpha
    have hletter : isLetter c = true := by
      by_contra hnot
      rw [form, if_neg hnot] at hform
      obtain rfl : c = d := by
        cases former with
        | nil => exact (List.cons.inj hform).1
        | cons e former => simp at hform
      rw [isLetter_of_ascii (lt_of_isAlphanumeric halphanumeric).2] at hnot
      exact hnot halpha
    rcases List.eq_nil_or_concat' former with rfl | ⟨former, y, rfl⟩
    · -- The small letter is the first one of its form, so that a letter stands before it.
      left
      have hbehind := (case_head_form hletter (by rw [hform]; rfl) halphanumeric).2
      rw [hsmall] at hbehind
      obtain ⟨front, x, rfl, hx⟩ := exists_letter_of_endsInLetter hbehind.symm
      rw [← hbehind, form, if_pos hletter, if_pos rfl] at hform
      refine ⟨front, x, c, after, by simp, hx, hletter, ?_, d, by rw [hform]; rfl, halphanumeric⟩
      rw [← getLast?_titleCase_append_singleton]
      rwa [List.append_nil] at hlast
    · right
      have hnotJoined : ¬List.IsChain Joins (form (endsInLetter false before) c) := by
        rw [hform, List.isChain_append]
        rintro ⟨-, -, hmeet⟩
        have hy := hmeet y (by simp) d rfl hsmall
        rw [hlast y (by simp)] at hy
        cases hy
      obtain ⟨rfl, hstart⟩ := not_not.mp (mt (isChain_joins_form hletter) hnotJoined)
      exact ⟨before, after, rfl, hstart⟩

theorem forall_startsCapitalized_iff (name : String) :
    (∀ token ∈ tokenize name, StartsCapitalized token) ↔ ¬BreaksWord name.toList := by
  rw [breaksWord_iff, ← exists_not_startsCapitalized_iff]
  simp only [not_exists, not_and, not_not]
  exact Iff.rfl

theorem startsCapitalized_of_ascii (hascii : ∀ c ∈ name.toList, c.toNat < 128) :
    ∀ token ∈ tokenize name, StartsCapitalized token := by
  rw [forall_startsCapitalized_iff]
  rintro (⟨front, x, c, back, htext, hx, -, hlast, -⟩ | ⟨front, back, htext, -⟩)
  · have hxAscii : x.toNat < 128 := hascii x (by simp [htext])
    rw [isLetter_of_ascii hxAscii] at hx
    obtain ⟨y, hy⟩ := Option.ne_none_iff_exists'.mp
      (mt List.getLast?_eq_none_iff.mp (form_ne_nil (endsInLetter false front) x))
    have hkept := isAlphanumeric_of_mem_form (isAlphanumeric_of_isAlpha hx)
      (List.mem_of_mem_getLast? hy)
    rw [hlast y hy] at hkept
    cases hkept
  · exact absurd (hascii 'ŉ' (by simp [htext])) (by decide)

/-- Every token starts with a capital letter or a digit exactly when no word of the name goes on
into ASCII behind a form that ends outside of it. Tokenizing the tokens again puts each into title
case, and gives the same tokens exactly when all of them start so. -/
theorem tokens_capitalized_iff (name : String) :
    ((∀ token ∈ tokenize name, StartsCapitalized token) ↔ ¬BreaksWord name.toList) ∧
    tokenize (joined (tokenize name)) = (tokenize name).map titleCase ∧
    (tokenize (joined (tokenize name)) = tokenize name ↔
      ∀ token ∈ tokenize name, StartsCapitalized token) := by
  have hagain := tokenize_joined fun token (h : token ∈ tokenize name) =>
    isToken_of_mem_alphanumericRuns h
  refine ⟨forall_startsCapitalized_iff name, hagain, ?_⟩
  have hfixed := List.map_inj_left (l := tokenize name) (f := titleCase) (g := id)
  rw [List.map_id] at hfixed
  rw [hagain, hfixed]
  exact forall₂_congr fun token htoken => titleCase_eq_self_iff htoken

/-- The first letter is none of ASCII, the second one is and stands inside of the word. -/
theorem token_not_capitalized_elan :
    tokenize "élan vital" = ["lan".toList, "Vital".toList] ∧
      ¬(∀ token ∈ tokenize "élan vital", StartsCapitalized token) ∧
      tokenize (joined (tokenize "élan vital")) ≠ tokenize "élan vital" := by
  decide +kernel

end Naming

end MethodSynthesis
