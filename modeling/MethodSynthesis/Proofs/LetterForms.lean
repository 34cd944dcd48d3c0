import Mathlib
import MethodSynthesis.Proofs.TokenCharacters

/-!
# ASCII in the forms of letters

Title case writes every character in its own form, which depends on nothing but the character and
on whether a letter stands before it. What is ASCII in the form of a letter is again a letter: a
capital one at the start of a form that starts a word, and a small one anywhere else. Of the
characters outside of ASCII the tables of the case mappings decide this, of the others they give
the ASCII mapping.
-/

namespace MethodSynthesis

open Text

/-! ## What the tables map to -/

namespace Text

variable {low high : Nat} {runs : List CaseRun} {expansions : List (Nat × List Nat)} {c d : Char}

namespace CaseRun

/-- Every character of the run is mapped outside of ASCII or between two bounds. -/
def AsciiWithin (low high : Nat) (run : CaseRun) : Prop :=
  128 ≤ run.first + run.distance ∨
    (low : Int) ≤ run.first + run.distance ∧ run.last + run.distance ≤ high

instance (low high : Nat) (run : CaseRun) : Decidable (run.AsciiWithin low high) :=
  inferInstanceAs (Decidable (_ ∨ _))

theorem apply_cases (code : Nat) (runs : List CaseRun) :
    apply code runs = code ∨
      ∃ run ∈ runs, run.first ≤ code ∧ code ≤ run.last ∧
        apply code runs = (code + run.distance).toNat := by
  induction runs with
  | nil => exact Or.inl rfl
  | cons run runs ih =>
      by_cases hbelow : code < run.first
      · left
        rw [apply, if_pos hbelow]
      · by_cases hcovers : run.covers code = true
        · right
          have hbounds : run.first ≤ code ∧ code ≤ run.last := by
            simp only [covers, Bool.and_eq_true, decide_eq_true_eq] at hcovers
            exact hcovers.1
          refine ⟨run, List.mem_cons_self, hbounds.1, hbounds.2, ?_⟩
          rw [apply, if_neg hbelow, if_pos hcovers]
        · rw [apply, if_neg hbelow, if_neg hcovers]
          rcases ih with hsame | ⟨other, hmem, hfound⟩
          · exact Or.inl hsame
          · exact Or.inr ⟨other, List.mem_cons_of_mem _ hmem, hfound⟩

theorem apply_ascii {code : Nat} (hruns : ∀ run ∈ runs, run.AsciiWithin low high)
    (hcode : 128 ≤ code) (hascii : apply code runs < 128) :
    low ≤ apply code runs ∧ apply code runs ≤ high := by
  rcases apply_cases code runs with hsame | ⟨run, hmem, hfirst, hlast, hmoved⟩
  · omega
  · rcases hruns run hmem with hfar | hnear <;> omega

end CaseRun

theorem toNat_ofNat_of_ne_zero {n : Nat} (h : (Char.ofNat n).toNat ≠ 0) :
    (Char.ofNat n).toNat = n := by
  unfold Char.ofNat at h ⊢
  split
  · rfl
  · rename_i hinvalid
    simp [hinvalid] at h

theorem mapCase_ne_nil (hexpansions : ∀ expansion ∈ expansions, expansion.2 ≠ []) (c : Char) :
    mapCase runs expansions c ≠ [] := by
  unfold mapCase
  split
  · rename_i codes hlookup
    obtain ⟨front, back, rfl, -⟩ := List.lookup_eq_some_iff.mp hlookup
    have hcodes := hexpansions _ (List.mem_append_right _ List.mem_cons_self)
    simpa using hcodes
  · exact List.cons_ne_nil _ _

theorem mapCase_ascii (hruns : ∀ run ∈ runs, run.AsciiWithin low high)
    (hexpansions : ∀ expansion ∈ expansions, ∀ code ∈ expansion.2,
      128 ≤ code ∨ low ≤ code ∧ code ≤ high)
    (hc : 128 ≤ c.toNat) (hd : d ∈ mapCase runs expansions c) (hpositive : d.toNat ≠ 0)
    (hascii : d.toNat < 128) : low ≤ d.toNat ∧ d.toNat ≤ high := by
  unfold mapCase at hd
  split at hd
  · rename_i codes hlookup
    obtain ⟨code, hcode, rfl⟩ := List.mem_map.mp hd
    obtain ⟨front, back, rfl, -⟩ := List.lookup_eq_some_iff.mp hlookup
    have hbounds := hexpansions _ (List.mem_append_right _ List.mem_cons_self) code hcode
    rw [toNat_ofNat_of_ne_zero hpositive] at hascii ⊢
    omega
  · obtain rfl := List.mem_singleton.mp hd
    rw [toNat_ofNat_of_ne_zero hpositive] at hascii ⊢
    exact CaseRun.apply_ascii hruns hc hascii

end Text

namespace Naming

variable {b : Bool} {c d : Char}

/-! ## Letters and their case mappings -/

theorem isUpper_iff : c.isUpper = true ↔ 65 ≤ c.toNat ∧ c.toNat ≤ 90 := by
  change decide (65 ≤ c.val ∧ c.val ≤ 90) = true ↔ _
  simp only [decide_eq_true_eq, UInt32.le_iff_toNat_le]
  rfl

theorem isLower_iff : c.isLower = true ↔ 97 ≤ c.toNat ∧ c.toNat ≤ 122 := by
  change (decide (97 ≤ c.val) && decide (c.val ≤ 122)) = true ↔ _
  simp only [Bool.and_eq_true, decide_eq_true_eq, UInt32.le_iff_toNat_le]
  rfl

theorem isAlpha_iff_isUpper_or_isLower :
    c.isAlpha = true ↔ c.isUpper = true ∨ c.isLower = true := by
  rw [isAlpha_iff, isUpper_iff, isLower_iff]
  rfl

theorem lt_of_isAlphanumeric (h : isAlphanumeric c = true) : 48 ≤ c.toNat ∧ c.toNat < 128 := by
  rw [isAlphanumeric_iff, isAlpha_iff, isDigit_iff] at h
  change 48 ≤ c.val.toNat ∧ c.val.toNat < 128
  omega

theorem tables_of_ascii (hc : c.toNat < 128) :
    isLetter c = c.isAlpha ∧ toLower c = [c.toLower] ∧ toUpper c = [c.toUpper] :=
  forall_below (P := fun c => isLetter c = c.isAlpha ∧ toLower c = [c.toLower] ∧
    toUpper c = [c.toUpper]) (by decide +kernel) hc

theorem isLetter_of_ascii (hc : c.toNat < 128) : isLetter c = c.isAlpha :=
  (tables_of_ascii hc).1

theorem lower_asciiWithin : (∀ run ∈ lowerRuns, run.AsciiWithin 97 122) ∧
    ∀ expansion ∈ lowerExpansions, expansion.2 ≠ [] ∧
      ∀ code ∈ expansion.2, 128 ≤ code ∨ 97 ≤ code ∧ code ≤ 122 := by decide +kernel

theorem upper_asciiWithin : (∀ run ∈ upperRuns, run.AsciiWithin 65 90) ∧
    ∀ expansion ∈ upperExpansions, expansion.2 ≠ [] ∧
      ∀ code ∈ expansion.2, 128 ≤ code ∨ 65 ≤ code ∧ code ≤ 90 := by decide +kernel

theorem case_of_not_isAlpha (h : ¬c.isAlpha = true) : c.toLower = c ∧ c.toUpper = c := by
  rw [isAlpha_iff_isUpper_or_isLower, not_or] at h
  exact ⟨Char.toLower_eq_of_not_isUpper h.1, Char.toUpper_eq_of_not_isLower h.2⟩

theorem isDigit_toUpper (c : Char) : c.toUpper.isDigit = c.isDigit := by
  by_cases hsmall : c.isLower = true
  · have halpha := isAlpha_iff_isUpper_or_isLower.mpr (Or.inr hsmall)
    rw [isDigit_eq_false_of_isAlpha halpha]
    rw [← Char.isAlpha_toUpper_eq_isAlpha] at halpha
    exact isDigit_eq_false_of_isAlpha halpha
  · rw [Char.toUpper_eq_of_not_isLower hsmall]

theorem isLower_of_mem_toLower (hc : c.isDigit = false) (hd : d ∈ toLower c)
    (h : isAlphanumeric d = true) : d.isLower = true := by
  by_cases hascii : c.toNat < 128
  · rw [(tables_of_ascii hascii).2.1, List.mem_singleton] at hd
    rw [hd, isAlphanumeric_iff, isDigit_toLower, hc] at h
    simpa [hd] using h
  · rw [isLower_iff]
    have hbounds := lt_of_isAlphanumeric h
    exact mapCase_ascii lower_asciiWithin.1 (fun e he => (lower_asciiWithin.2 e he).2) (by omega) hd
      (by omega) hbounds.2

theorem isUpper_of_mem_toUpper (hc : c.isDigit = false) (hd : d ∈ toUpper c)
    (h : isAlphanumeric d = true) : d.isUpper = true := by
  by_cases hascii : c.toNat < 128
  · rw [(tables_of_ascii hascii).2.2, List.mem_singleton] at hd
    rw [hd, isAlphanumeric_iff, isDigit_toUpper, hc] at h
    simpa [hd] using h
  · rw [isUpper_iff]
    have hbounds := lt_of_isAlphanumeric h
    exact mapCase_ascii upper_asciiWithin.1 (fun e he => (upper_asciiWithin.2 e he).2) (by omega) hd
      (by omega) hbounds.2

/-! ## Forms -/

/-- What title case makes of a character behind a letter, or behind none. -/
def form (behindLetter : Bool) (c : Char) : List Char :=
  if isLetter c then if behindLetter then toLower c else capitalized c else [c]

theorem form_of_ascii (behindLetter : Bool) (hc : c.toNat < 128) :
    form behindLetter c = [if behindLetter then c.toLower else c.toUpper] := by
  obtain ⟨hletter, hlower, hupper⟩ := tables_of_ascii hc
  by_cases halpha : c.isAlpha = true
  · cases behindLetter <;> simp [form, capitalized, hletter, halpha, hlower, hupper]
  · obtain ⟨hlower, hupper⟩ := case_of_not_isAlpha halpha
    rw [form, hletter, if_neg halpha, hlower, hupper, ite_self]

theorem isAlphanumeric_toUpper (hc : isAlphanumeric c = true) : isAlphanumeric c.toUpper = true := by
  rw [isAlphanumeric_iff, isDigit_toUpper, Char.isAlpha_toUpper_eq_isAlpha]
  exact isAlphanumeric_iff.mp hc

theorem isAlphanumeric_of_mem_form {behindLetter : Bool} (hc : isAlphanumeric c = true)
    (hd : d ∈ form behindLetter c) : isAlphanumeric d = true := by
  rw [form_of_ascii behindLetter (lt_of_isAlphanumeric hc).2, List.mem_singleton] at hd
  subst hd
  cases behindLetter with
  | true => exact isAlphanumeric_toLower hc
  | false => exact isAlphanumeric_toUpper hc

/-- Whether the character behind a text stands behind a letter. -/
def endsInLetter (behindLetter : Bool) (text : List Char) : Bool :=
  (text.getLast?.map isLetter).getD behindLetter

theorem endsInLetter_cons (behindLetter : Bool) (c : Char) (text : List Char) :
    endsInLetter behindLetter (c :: text) = endsInLetter (isLetter c) text := by
  rw [endsInLetter, endsInLetter, List.getLast?_cons]
  cases text.getLast? <;> rfl

theorem titleCaseAfter_cons (behindLetter : Bool) (c : Char) (text : List Char) :
    titleCaseAfter behindLetter (c :: text) =
      form behindLetter c ++ titleCaseAfter (isLetter c) text := by
  by_cases hletter : isLetter c = true <;> simp [titleCaseAfter, form, hletter]

theorem titleCaseAfter_append (behindLetter : Bool) (front back : List Char) :
    titleCaseAfter behindLetter (front ++ back) =
      titleCaseAfter behindLetter front ++ titleCaseAfter (endsInLetter behindLetter front) back := by
  induction front generalizing behindLetter with
  | nil => rfl
  | cons c front ih =>
      rw [List.cons_append, titleCaseAfter_cons, titleCaseAfter_cons, ih, List.append_assoc,
        endsInLetter_cons]

theorem isDigit_eq_false_of_isLetter (h : isLetter c = true) : c.isDigit = false := by
  by_cases hascii : c.toNat < 128
  · rw [isLetter_of_ascii hascii] at h
    exact isDigit_eq_false_of_isAlpha h
  · rw [Bool.eq_false_iff, ne_eq, isDigit_iff]
    change ¬(48 ≤ c.toNat ∧ c.toNat ≤ 57)
    omega

/-- A form that starts a word is one or more capitals of which all but the first are put into lower
case. -/
theorem capitalized_eq (c : Char) :
    ∃ first others, toUpper c = first :: others ∧
      capitalized c = first :: others.flatMap toLower := by
  have hne : toUpper c ≠ [] := mapCase_ne_nil (fun e he => (upper_asciiWithin.2 e he).1) c
  obtain ⟨first, others, hupper⟩ := List.exists_cons_of_ne_nil hne
  exact ⟨first, others, hupper, by rw [capitalized, hupper]⟩

theorem form_ne_nil (behindLetter : Bool) (c : Char) : form behindLetter c ≠ [] := by
  have hlower : toLower c ≠ [] := mapCase_ne_nil (fun e he => (lower_asciiWithin.2 e he).1) c
  obtain ⟨first, others, -, hcapitalized⟩ := capitalized_eq c
  unfold form
  split
  · split
    · exact hlower
    · rw [hcapitalized]
      exact List.cons_ne_nil _ _
  · exact List.cons_ne_nil _ _

theorem case_head_form {behindLetter : Bool} (hletter : isLetter c = true)
    (hd : d ∈ (form behindLetter c).head?) (h : isAlphanumeric d = true) :
    d.isAlpha = true ∧ d.isLower = behindLetter := by
  have hdigit := isDigit_eq_false_of_isLetter hletter
  rw [form, if_pos hletter] at hd
  cases behindLetter with
  | true =>
      have hsmall := isLower_of_mem_toLower hdigit (List.mem_of_mem_head? hd) h
      exact ⟨isAlpha_iff_isUpper_or_isLower.mpr (Or.inr hsmall), hsmall⟩
  | false =>
      obtain ⟨first, others, hupper, hcapitalized⟩ := capitalized_eq c
      rw [if_neg Bool.false_ne_true, hcapitalized] at hd
      obtain rfl : first = d := by simpa using hd
      have hcapital := isUpper_of_mem_toUpper hdigit (by simp [hupper]) h
      exact ⟨isAlpha_iff_isUpper_or_isLower.mpr (Or.inl hcapital),
        Bool.eq_false_iff.mpr (Char.not_isLower_of_isUpper hcapital)⟩

theorem isLower_tail_form {behindLetter : Bool} (hletter : isLetter c = true)
    (hd : d ∈ (form behindLetter c).tail) (h : isAlphanumeric d = true) : d.isLower = true := by
  have hdigit := isDigit_eq_false_of_isLetter hletter
  rw [form, if_pos hletter] at hd
  cases behindLetter with
  | true => exact isLower_of_mem_toLower hdigit (List.mem_of_mem_tail hd) h
  | false =>
      obtain ⟨first, others, hupper, hcapitalized⟩ := capitalized_eq c
      rw [if_neg Bool.false_ne_true, hcapitalized, List.tail_cons] at hd
      obtain ⟨other, hother, hd⟩ := List.mem_flatMap.mp hd
      refine isLower_of_mem_toLower (Bool.eq_false_iff.mpr fun hotherDigit => ?_) hd h
      have hcapital := isUpper_of_mem_toUpper hdigit (d := other) (by simp [hupper, hother])
        (isAlphanumeric_iff.mpr (Or.inr hotherDigit))
      rw [isUpper_iff] at hcapital
      rw [isDigit_iff] at hotherDigit
      have hval : other.val.toNat = other.toNat := rfl
      omega

theorem isAlpha_of_mem_form {behindLetter : Bool} (hletter : isLetter c = true)
    (hd : d ∈ form behindLetter c) (h : isAlphanumeric d = true) : d.isAlpha = true := by
  obtain ⟨first, rest, hform⟩ := List.exists_cons_of_ne_nil (form_ne_nil behindLetter c)
  rw [hform] at hd
  rcases List.mem_cons.mp hd with rfl | hrest
  · have hhead : d ∈ (form behindLetter c).head? := by simp [hform]
    exact (case_head_form hletter hhead h).1
  · have htail : d ∈ (form behindLetter c).tail := by simpa [hform] using hrest
    exact isAlpha_iff_isUpper_or_isLower.mpr (Or.inr (isLower_tail_form hletter htail h))

end Naming

end MethodSynthesis
