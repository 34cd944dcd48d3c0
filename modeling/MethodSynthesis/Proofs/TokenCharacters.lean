import MethodSynthesis.Naming.MethodNames

/-!
# Characters of tokens and method names

A token is a nonempty run of ASCII letters and digits, and so is every method name under the
default verbs. The first token starts with the first letter or digit in the title case of the name.
-/

namespace MethodSynthesis

namespace Naming

variable {text : List Char} {c : Char}

theorem isAlpha_iff : c.isAlpha = true ↔
    65 ≤ c.val.toNat ∧ c.val.toNat ≤ 90 ∨ 97 ≤ c.val.toNat ∧ c.val.toNat ≤ 122 := by
  change (decide (65 ≤ c.val ∧ c.val ≤ 90) ||
    (decide (97 ≤ c.val) && decide (c.val ≤ 122))) = true ↔ _
  simp only [Bool.or_eq_true, Bool.and_eq_true, decide_eq_true_eq, UInt32.le_iff_toNat_le]
  rfl

theorem isDigit_iff : c.isDigit = true ↔ 48 ≤ c.val.toNat ∧ c.val.toNat ≤ 57 := by
  change (decide (48 ≤ c.val) && decide (c.val ≤ 57)) = true ↔ _
  simp only [Bool.and_eq_true, decide_eq_true_eq, UInt32.le_iff_toNat_le]
  rfl

theorem isAlphanumeric_iff : isAlphanumeric c = true ↔ c.isAlpha = true ∨ c.isDigit = true := by
  rw [isAlpha_iff, isDigit_iff]
  simp only [isAlphanumeric, Bool.or_eq_true, Bool.and_eq_true, decide_eq_true_eq, Char.le_def,
    UInt32.le_iff_toNat_le]
  exact or_congr_left or_comm

theorem isAlphanumeric_eq_isAlphanum (c : Char) : isAlphanumeric c = c.isAlphanum := by
  rw [Bool.eq_iff_iff, isAlphanumeric_iff, Char.isAlphanum, Bool.or_eq_true]

theorem isDigit_eq_false_of_isAlpha (h : c.isAlpha = true) : c.isDigit = false := by
  rw [Bool.eq_false_iff, ne_eq, isDigit_iff]
  rw [isAlpha_iff] at h
  omega

theorem toLower_cases (c : Char) :
    c.toLower = c ∨ c.isAlpha = true ∧ c.toLower.isAlpha = true := by
  rw [isAlpha_iff, isAlpha_iff]
  unfold Char.toLower
  split
  · rename_i hupper
    have hlow : 65 ≤ c.val.toNat := hupper.1
    have hhigh : c.val.toNat ≤ 90 := hupper.2
    have hshift : (c.val + ('a'.val - 'A'.val)).toNat = c.val.toNat + 32 := by
      rw [UInt32.toNat_add]
      change (c.val.toNat + 32) % 2 ^ 32 = c.val.toNat + 32
      omega
    right
    rw [hshift]
    omega
  · exact Or.inl rfl

theorem isAlphanumeric_toLower (h : isAlphanumeric c = true) :
    isAlphanumeric c.toLower = true := by
  rcases toLower_cases c with hsame | ⟨-, hletter⟩
  · rw [hsame]
    exact h
  · simp [isAlphanumeric_eq_isAlphanum, Char.isAlphanum, hletter]

theorem isDigit_toLower (c : Char) : c.toLower.isDigit = c.isDigit := by
  rcases toLower_cases c with hsame | ⟨hcapital, hletter⟩
  · rw [hsame]
  · rw [isDigit_eq_false_of_isAlpha hcapital, isDigit_eq_false_of_isAlpha hletter]

/-- A nonempty text of ASCII letters and digits. -/
structure IsToken (text : List Char) : Prop where
  ne_nil : text ≠ []
  alphanumeric : ∀ c ∈ text, isAlphanumeric c = true

theorem isToken_of_mem_consRun {run : List Char} {runs : List (List Char)}
    (hrun : ∀ c ∈ run, isAlphanumeric c = true) (hruns : ∀ token ∈ runs, IsToken token) :
    ∀ token ∈ consRun run runs, IsToken token := by
  unfold consRun
  split
  · exact hruns
  · rename_i hne
    intro token hmem
    rcases List.mem_cons.mp hmem with rfl | hmem
    · exact ⟨by simpa using hne, hrun⟩
    · exact hruns token hmem

theorem splitRuns_spec (text : List Char) :
    (∀ c ∈ (splitRuns text).1, isAlphanumeric c = true) ∧
      ∀ token ∈ (splitRuns text).2, IsToken token := by
  induction text with
  | nil => simp [splitRuns]
  | cons c rest ih =>
      obtain ⟨hrun, hruns⟩ := ih
      simp only [splitRuns]
      split
      · rename_i hc
        exact ⟨by simpa using ⟨hc, hrun⟩, hruns⟩
      · exact ⟨by simp, isToken_of_mem_consRun hrun hruns⟩

theorem isToken_of_mem_alphanumericRuns {token : List Char}
    (h : token ∈ alphanumericRuns text) : IsToken token := by
  obtain ⟨hrun, hruns⟩ := splitRuns_spec text
  exact isToken_of_mem_consRun hrun hruns token h

theorem alphanumericRuns_cons_of_not (h : ¬ isAlphanumeric c = true) :
    alphanumericRuns (c :: text) = alphanumericRuns text := by
  simp [alphanumericRuns, splitRuns, h, consRun]

theorem head?_alphanumericRuns (text : List Char) :
    (alphanumericRuns text).head?.bind List.head? = text.find? isAlphanumeric := by
  induction text with
  | nil => rfl
  | cons c rest ih =>
      by_cases hc : isAlphanumeric c = true
      · simp [alphanumericRuns, splitRuns, hc, consRun]
      · rw [alphanumericRuns_cons_of_not hc, ih, List.find?_cons_of_neg hc]

def Alphanumeric (text : String) : Prop := ∀ c ∈ text.toList, isAlphanumeric c = true

instance (text : String) : Decidable (Alphanumeric text) :=
  decidable_of_iff (text.toList.all isAlphanumeric = true) List.all_eq_true

theorem Alphanumeric.append {front back : String} (hfront : Alphanumeric front)
    (hback : Alphanumeric back) : Alphanumeric (front ++ back) := by
  intro c hc
  rw [String.toList_append, List.mem_append] at hc
  exact hc.elim (hfront c) (hback c)

/-- The first ASCII letter or digit in the title case of the name is a digit. -/
def LeadsWithDigit (name : String) : Prop :=
  ((titleCase name.toList).find? isAlphanumeric).any Char.isDigit = true

instance (name : String) : Decidable (LeadsWithDigit name) :=
  inferInstanceAs (Decidable (_ = true))

end Naming

namespace MethodNames

open Naming

variable {names : MethodNames} {name : String}

theorem tokens_of_derive? (h : derive? name = some names) : tokenize name = names.tokens := by
  unfold derive? at h
  split at h
  · cases h
  · rename_i first rest htokens
    cases h
    exact htokens

theorem isToken_of_derive? (h : derive? name = some names) {token : List Char}
    (hmem : token ∈ names.tokens) : IsToken token := by
  rw [← tokens_of_derive? h] at hmem
  exact isToken_of_mem_alphanumericRuns hmem

theorem leadsWithDigit_iff (h : derive? name = some names) :
    LeadsWithDigit name ↔ names.first.head?.any Char.isDigit = true := by
  have hhead := head?_alphanumericRuns (titleCase name.toList)
  have htokens : alphanumericRuns (titleCase name.toList) = names.tokens := tokens_of_derive? h
  rw [LeadsWithDigit, ← hhead, htokens]
  rfl

/-! ## Method names -/

theorem alphanumeric_pascal (h : derive? name = some names) : Alphanumeric names.pascal := by
  intro c hc
  rw [pascal, String.toList_ofList, List.mem_flatten] at hc
  obtain ⟨token, htoken, hc⟩ := hc
  exact (isToken_of_derive? h htoken).alphanumeric c hc

theorem alphanumeric_camel (h : derive? name = some names) : Alphanumeric names.camel := by
  intro c hc
  rw [camel, String.toList_ofList, List.mem_append] at hc
  rcases hc with hfirst | hrest
  · obtain ⟨upper, hmem, rfl⟩ := List.mem_map.mp hfirst
    have htoken : IsToken names.first := isToken_of_derive? h List.mem_cons_self
    exact isAlphanumeric_toLower (htoken.alphanumeric upper hmem)
  · refine alphanumeric_pascal h c ?_
    rw [pascal, String.toList_ofList, tokens, List.flatten_cons]
    exact List.mem_append_right _ hrest

theorem alphanumeric_method (h : derive? name = some names) (kind : MethodKind) :
    Alphanumeric (names.method kind {}) := by
  have hpascal := alphanumeric_pascal h
  have hcamel := alphanumeric_camel h
  have hset : Alphanumeric "set" := by decide
  have henable : Alphanumeric "enable" := by decide
  have hindex : Alphanumeric "Index" := by decide
  have henabled : Alphanumeric "Enabled" := by decide
  cases kind with
  | setValue => exact hset.append hpascal
  | value => exact hcamel
  | enable => exact henable.append hpascal
  | isEnabled => exact hcamel.append henabled
  | setDiscreteIndex => exact (hset.append hpascal).append hindex
  | discreteIndex => exact hcamel.append hindex

theorem exists_camel_eq_cons (h : derive? name = some names) :
    ∃ c rest, names.first.head? = some c ∧ names.camel.toList = c.toLower :: rest := by
  have htoken : IsToken names.first := isToken_of_derive? h List.mem_cons_self
  obtain ⟨c, rest, hfirst⟩ := List.exists_cons_of_ne_nil htoken.ne_nil
  refine ⟨c, rest.map Char.toLower ++ names.rest.flatten, ?_, by simp [camel, hfirst]⟩
  rw [hfirst]
  rfl

end MethodNames

end MethodSynthesis
