import Mathlib.Data.List.TakeWhile
import MethodSynthesis.Proofs.LetterForms
import MethodSynthesis.Proofs.MethodNameLengths

/-!
# Tokens as maximal runs

The tokens of a name are the maximal runs of ASCII letters and digits in its title case, all of
them and in order. A run is taken here with the text before and behind it, so that equal runs at
different places are different; the splitting of a text is then described by induction on the text,
where one more character in front moves every run by one place.
-/

namespace MethodSynthesis

namespace Naming

open Text

variable {text : List Char} {c : Char} {stretches : List Stretch}

/-! ## Maximal runs -/

/-- A part of a text between what stands before and what stands behind it. -/
structure Stretch where
  front : List Char
  run : List Char
  back : List Char

namespace Stretch

/-- The run is made of letters and digits, and no other stands right before or right behind it. -/
structure IsMaximalRun (text : List Char) (s : Stretch) : Prop where
  text_eq : text = s.front ++ (s.run ++ s.back)
  isToken : IsToken s.run
  left : ∀ c ∈ s.front.getLast?, isAlphanumeric c = false
  right : ∀ c ∈ s.back.head?, isAlphanumeric c = false

def behind (c : Char) (s : Stretch) : Stretch := { s with front := c :: s.front }

/-- The longest run at the start of a text. -/
def first (text : List Char) : Stretch :=
  ⟨[], text.takeWhile isAlphanumeric, text.dropWhile isAlphanumeric⟩

end Stretch

/-- The stretches with a property, all of them and from left to right. -/
structure Enumerates (p : Stretch → Prop) (stretches : List Stretch) : Prop where
  ordered : stretches.Pairwise fun s t => s.front.length < t.front.length
  mem_iff : ∀ s, s ∈ stretches ↔ p s

namespace Stretch

/-- A maximal run that starts behind the first character is one of the text behind it, where the
first character must not go on with it. -/
theorem isMaximalRun_cons_iff {s : Stretch} :
    (s.IsMaximalRun (c :: text) ∧ s.front ≠ []) ↔
      ∃ t : Stretch, s = t.behind c ∧ t.IsMaximalRun text ∧ (t.front = [] → isAlphanumeric c = false) := by
  obtain ⟨front, run, back⟩ := s
  constructor
  · rintro ⟨⟨htext, htoken, hleft, hright⟩, hne⟩
    cases front with
    | nil => exact absurd rfl hne
    | cons d front =>
        obtain ⟨rfl, htext⟩ := List.cons.inj htext
        refine ⟨⟨front, run, back⟩, rfl, ⟨htext, htoken, fun x hx => hleft x ?_, hright⟩,
          fun hfront => ?_⟩
        · change x ∈ (c :: front).getLast?
          rw [List.getLast?_cons, Option.mem_def.mp hx]
          rfl
        · subst hfront
          exact hleft c rfl
  · rintro ⟨⟨front, run, back⟩, heq, ⟨htext, htoken, hleft, hright⟩, hc⟩
    cases heq
    refine ⟨⟨congrArg (List.cons c) htext, htoken, fun x hx => ?_, hright⟩, List.cons_ne_nil _ _⟩
    cases hlast : front.getLast? with
    | none =>
        obtain rfl : front = [] := List.getLast?_eq_none_iff.mp hlast
        cases hx
        exact hc rfl
    | some last =>
        change x ∈ (c :: front).getLast? at hx
        rw [List.getLast?_cons, hlast] at hx
        cases hx
        exact hleft last hlast

/-- The only maximal run that can start with the text is the longest run at its start. -/
theorem isMaximalRun_first_iff {s : Stretch} :
    (s.IsMaximalRun text ∧ s.front = []) ↔ s = first text ∧ (first text).run ≠ [] := by
  constructor
  · obtain ⟨front, run, back⟩ := s
    rintro ⟨⟨htext, htoken, -, hright⟩, rfl⟩
    obtain rfl : text = run ++ back := htext
    have hback : back.takeWhile isAlphanumeric = [] ∧ back.dropWhile isAlphanumeric = back := by
      cases back with
      | nil => exact ⟨rfl, rfl⟩
      | cons d back => simp [hright d rfl]
    have hfirst : first (run ++ back) = ⟨[], run, back⟩ := by
      rw [first, List.takeWhile_append_of_pos htoken.alphanumeric,
        List.dropWhile_append_of_pos htoken.alphanumeric, hback.1, hback.2, List.append_nil]
    rw [hfirst]
    exact ⟨rfl, htoken.ne_nil⟩
  · rintro ⟨rfl, hne⟩
    refine ⟨⟨List.takeWhile_append_dropWhile.symm, ⟨hne, fun x hx => ?_⟩, nofun, fun x hx => ?_⟩, rfl⟩
    · exact List.mem_takeWhile_imp hx
    · have hhead := List.head?_dropWhile_not isAlphanumeric text
      change x ∈ (text.dropWhile isAlphanumeric).head? at hx
      rw [Option.mem_def.mp hx] at hhead
      simpa using hhead

end Stretch

namespace Enumerates

theorem map_behind {p q : Stretch → Prop} (h : Enumerates p stretches)
    (hq : ∀ s, q s ↔ ∃ t, s = t.behind c ∧ p t) :
    Enumerates q (stretches.map (Stretch.behind c)) := by
  refine ⟨List.pairwise_map.mpr (h.ordered.imp fun hlt => Nat.succ_lt_succ hlt), fun s => ?_⟩
  rw [hq, List.mem_map]
  constructor
  · rintro ⟨t, ht, rfl⟩
    exact ⟨t, rfl, (h.mem_iff t).mp ht⟩
  · rintro ⟨t, rfl, ht⟩
    exact ⟨t, (h.mem_iff t).mpr ht, rfl⟩

theorem cons_first (h : Enumerates (fun s => s.IsMaximalRun text ∧ s.front ≠ []) stretches) :
    ∃ all, Enumerates (Stretch.IsMaximalRun text) all ∧
      all.map Stretch.run = consRun (text.takeWhile isAlphanumeric) (stretches.map Stretch.run) := by
  have hfirst : ∀ s : Stretch, s.IsMaximalRun text ∧ s.front = [] ↔
      s = Stretch.first text ∧ text.takeWhile isAlphanumeric ≠ [] := fun s =>
    Stretch.isMaximalRun_first_iff
  by_cases hempty : text.takeWhile isAlphanumeric = []
  · refine ⟨stretches, ⟨h.ordered, fun s => ?_⟩, by simp [consRun, hempty]⟩
    rw [h.mem_iff]
    refine ⟨And.left, fun hs => ⟨hs, fun hfront => ?_⟩⟩
    exact ((hfirst s).mp ⟨hs, hfront⟩).2 hempty
  · refine ⟨Stretch.first text :: stretches, ⟨List.pairwise_cons.mpr ⟨fun s hs => ?_, h.ordered⟩,
      fun s => ?_⟩, by simp [consRun, hempty, Stretch.first]⟩
    · exact List.length_pos_iff.mpr ((h.mem_iff s).mp hs).2
    · rw [List.mem_cons, h.mem_iff]
      have hstart : s = Stretch.first text ↔ s.IsMaximalRun text ∧ s.front = [] := by
        rw [hfirst]
        exact (and_iff_left hempty).symm
      rw [hstart, ← and_or_left]
      exact and_iff_left (em _)

end Enumerates

/-- Splitting gives the run at the start, perhaps empty, and all maximal runs behind it. -/
theorem splitRuns_enumerates (text : List Char) :
    (splitRuns text).1 = text.takeWhile isAlphanumeric ∧
      ∃ stretches, Enumerates (fun s => s.IsMaximalRun text ∧ s.front ≠ []) stretches ∧
        (splitRuns text).2 = stretches.map Stretch.run := by
  induction text with
  | nil =>
      refine ⟨rfl, [], ⟨List.Pairwise.nil, fun s => ⟨nofun, fun ⟨hs, hne⟩ => ?_⟩⟩, rfl⟩
      exact absurd (List.append_eq_nil_iff.mp hs.text_eq.symm).1 hne
  | cons c text ih =>
      obtain ⟨hrun, stretches, henumerates, hruns⟩ := ih
      by_cases hc : isAlphanumeric c = true
      · refine ⟨by simp [splitRuns, hc, hrun], stretches.map (Stretch.behind c),
          henumerates.map_behind fun s => ?_, ?_⟩
        · rw [Stretch.isMaximalRun_cons_iff]
          simp [hc]
        · rw [List.map_map]
          simp only [splitRuns, hc, if_true, hruns]
          rfl
      · obtain ⟨all, hall, hmap⟩ := henumerates.cons_first
        refine ⟨by simp [splitRuns, hc], all.map (Stretch.behind c),
          hall.map_behind fun s => ?_, ?_⟩
        · rw [Stretch.isMaximalRun_cons_iff]
          simp [hc]
        · rw [List.map_map]
          simp only [splitRuns, hc, Bool.false_eq_true, if_false, hrun, hruns, ← hmap]
          rfl

theorem alphanumericRuns_enumerates (text : List Char) :
    ∃ stretches, Enumerates (Stretch.IsMaximalRun text) stretches ∧
      alphanumericRuns text = stretches.map Stretch.run := by
  obtain ⟨hrun, stretches, henumerates, hruns⟩ := splitRuns_enumerates text
  obtain ⟨all, hall, hmap⟩ := henumerates.cons_first
  exact ⟨all, hall, by rw [hmap, ← hrun, ← hruns]; rfl⟩

theorem mem_alphanumericRuns_iff {token : List Char} :
    token ∈ alphanumericRuns text ↔ ∃ s : Stretch, s.IsMaximalRun text ∧ s.run = token := by
  obtain ⟨stretches, henumerates, hruns⟩ := alphanumericRuns_enumerates text
  simp only [hruns, List.mem_map, henumerates.mem_iff]

/-! ## What is left of the title case -/

theorem flatten_consRun (run : List Char) (runs : List (List Char)) :
    (consRun run runs).flatten = run ++ runs.flatten := by
  cases run <;> simp [consRun]

theorem flatten_splitRuns (text : List Char) :
    (splitRuns text).1 ++ (splitRuns text).2.flatten = text.filter isAlphanumeric := by
  induction text with
  | nil => rfl
  | cons c text ih =>
      by_cases hc : isAlphanumeric c = true
      · simp [splitRuns, hc, ih]
      · simp [splitRuns, hc, ih, flatten_consRun]

theorem flatten_alphanumericRuns (text : List Char) :
    (alphanumericRuns text).flatten = text.filter isAlphanumeric := by
  rw [← flatten_splitRuns, ← flatten_consRun]
  rfl

theorem alphanumericRuns_eq_nil_iff :
    alphanumericRuns text = [] ↔ ∀ c ∈ text, isAlphanumeric c = false := by
  constructor
  · intro hnil
    have hfilter := flatten_alphanumericRuns text
    rw [hnil, List.flatten_nil, eq_comm, List.filter_eq_nil_iff] at hfilter
    exact fun c hc => Bool.eq_false_iff.mpr (hfilter c hc)
  · intro hnone
    refine List.eq_nil_iff_forall_not_mem.mpr fun token htoken => ?_
    have hspec := isToken_of_mem_alphanumericRuns htoken
    obtain ⟨c, hc⟩ := List.exists_mem_of_ne_nil token hspec.ne_nil
    have hflatten : c ∈ (alphanumericRuns text).flatten := List.mem_flatten_of_mem htoken hc
    rw [flatten_alphanumericRuns, List.mem_filter] at hflatten
    exact absurd hflatten.2 (Bool.eq_false_iff.mp (hnone c hflatten.1))

theorem exists_mem_titleCase (hmem : c ∈ text) (hc : isAlphanumeric c = true) :
    ∃ d ∈ titleCase text, isAlphanumeric d = true := by
  obtain ⟨front, back, rfl⟩ := List.append_of_mem hmem
  obtain ⟨d, hd⟩ := List.exists_mem_of_ne_nil _ (form_ne_nil (endsInLetter false front) c)
  refine ⟨d, ?_, isAlphanumeric_of_mem_form hc hd⟩
  rw [titleCase, titleCaseAfter_append, titleCaseAfter_cons]
  exact List.mem_append_right _ (List.mem_append_left _ hd)

end Naming

namespace MethodNames

open Naming

variable {name : String} {names : MethodNames}

theorem derive?_eq_none_iff :
    derive? name = none ↔ ∀ c ∈ titleCase name.toList, isAlphanumeric c = false := by
  rw [← alphanumericRuns_eq_nil_iff]
  change derive? name = none ↔ tokenize name = []
  unfold derive?
  split <;> simp_all

theorem method_ne_empty (h : derive? name = some names) (kind : MethodKind) :
    names.method kind {} ≠ "" := by
  intro hempty
  obtain ⟨c, rest, -, hcamel⟩ := exists_camel_eq_cons h
  have hlength := names.length_method kind
  rw [hempty, ← String.length_toList (s := names.camel), hcamel, List.length_cons] at hlength
  have hzero : "".length = 0 := rfl
  omega

end MethodNames

namespace Naming

/-- The tokens of a name are the maximal runs of letters and digits in its title case, so that
together they are the title case without any other character. A name has method names unless its
title case has no letter or digit, and then none is in the name either; under the default verbs a
method name is never empty and made of letters and digits alone. -/
theorem tokenize_exact (name : String) :
    (∃ stretches, Enumerates (Stretch.IsMaximalRun (titleCase name.toList)) stretches ∧
      tokenize name = stretches.map Stretch.run) ∧
    (∀ token ∈ tokenize name, IsToken token) ∧
    (tokenize name).flatten = (titleCase name.toList).filter isAlphanumeric ∧
    (MethodNames.derive? name = none ↔
      ∀ c ∈ titleCase name.toList, isAlphanumeric c = false) ∧
    (∀ c ∈ name.toList, isAlphanumeric c = true → MethodNames.derive? name ≠ none) ∧
    ∀ names, MethodNames.derive? name = some names →
      tokenize name = names.first :: names.rest ∧
      names.pascal.length = names.camel.length ∧
      ∀ kind, names.method kind {} ≠ "" ∧ Alphanumeric (names.method kind {}) := by
  refine ⟨alphanumericRuns_enumerates _, fun token => isToken_of_mem_alphanumericRuns,
    flatten_alphanumericRuns _, MethodNames.derive?_eq_none_iff, fun c hmem hc hnone => ?_,
    fun names hnames => ?_⟩
  · obtain ⟨d, hd, halphanumeric⟩ := exists_mem_titleCase hmem hc
    rw [MethodNames.derive?_eq_none_iff.mp hnone d hd] at halphanumeric
    cases halphanumeric
  · exact ⟨MethodNames.tokens_of_derive? hnames, names.length_pascal, fun kind =>
      ⟨MethodNames.method_ne_empty hnames kind, MethodNames.alphanumeric_method hnames kind⟩⟩

theorem tokenize_exact_strasse :
    ∃ names, MethodNames.derive? "3. straße ﬁx" = some names ∧
      tokenize "3. straße ﬁx" = names.first :: names.rest ∧
      names.pascal.length = names.camel.length ∧
      names.method .isEnabled {} ≠ "" ∧ Alphanumeric (names.method .isEnabled {}) := by
  obtain ⟨-, -, -, -, hderivable, hnames⟩ := tokenize_exact "3. straße ﬁx"
  obtain ⟨names, hderive⟩ :=
    Option.ne_none_iff_exists'.mp (hderivable '3' (by decide +kernel) (by decide))
  obtain ⟨htokens, hlength, hmethod⟩ := hnames names hderive
  exact ⟨names, hderive, htokens, hlength, hmethod .isEnabled⟩

end Naming

end MethodSynthesis
