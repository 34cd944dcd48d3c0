import MethodSynthesis.Proofs.MarkedSearch
import MethodSynthesis.Scenario.Assertion

/-!
# What the search for a pattern finds

Written out and without a mark, a pattern matches as it stands. So a text is found to have an
occurrence exactly when the pattern spans from one of its places to another.
-/

namespace MethodSynthesis

open TextPlace

/-- The text from one place to another matches the pattern. -/
inductive Pattern.Spans : Pattern → TextPlace → TextPlace → Prop
  | char {set : CharSet} {before : Option Char} {c : Char} {rest : List Char}
      (hc : set.contains c = true) : Spans (.char set) ⟨before, c :: rest⟩ ⟨some c, rest⟩
  | anchor {place : Anchor} {p : TextPlace} (hholds : place.holds p.before p.rest.head? = true) :
      Spans (.anchor place) p p
  | group {part : Pattern} {p q : TextPlace} (h : Spans part p q) : Spans (.group part) p q
  | enough {more : Option Nat} {part : Pattern} {p : TextPlace} :
      Spans (.repeated ⟨0, more⟩ part) p p
  | least {least : Nat} {more : Option Nat} {part : Pattern} {p r q : TextPlace}
      (h : Spans part p r) (hrest : Spans (.repeated ⟨least, more⟩ part) r q) :
      Spans (.repeated ⟨least + 1, more⟩ part) p q
  | more {more : Nat} {part : Pattern} {p r q : TextPlace} (h : Spans part p r)
      (hrest : Spans (.repeated ⟨0, some more⟩ part) r q) :
      Spans (.repeated ⟨0, some (more + 1)⟩ part) p q
  | again {part : Pattern} {p r q : TextPlace} (h : Spans part p r)
      (hrest : Spans (.repeated ⟨0, none⟩ part) r q) : Spans (.repeated ⟨0, none⟩ part) p q
  | nil {p : TextPlace} : Spans (.sequence []) p p
  | cons {part : Pattern} {parts : List Pattern} {p r q : TextPlace} (h : Spans part p r)
      (hrest : Spans (.sequence parts) r q) : Spans (.sequence (part :: parts)) p q
  | choice {option : Pattern} {options : List Pattern} {p q : TextPlace} (hmem : option ∈ options)
      (h : Spans option p q) : Spans (.choice options) p q

/-! ## Patterns written out -/

namespace MarkedPattern

theorem exists_of_finishes_sequence {parts : List MarkedPattern} {p q : TextPlace}
    (h : Finishes (.sequence parts) p q) :
    ∃ part ∈ parts, ∃ p q, part.Finishes p q := by
  induction parts with
  | nil => exact absurd h not_finishes_nil
  | cons part parts ih =>
      obtain ⟨r, h, -⟩ | h := finishes_cons_iff.mp h
      · exact ⟨part, List.mem_cons_self, p, r, h⟩
      · obtain ⟨other, hmem, hother⟩ := ih h
        exact ⟨other, List.mem_cons_of_mem _ hmem, hother⟩

end MarkedPattern

namespace Pattern

open MarkedPattern (spans_cons_iff spans_nil_iff spans_repeated_iff spans_optional_iff GoesOn)

variable {part : Pattern} {m : MarkedPattern} {p q r : TextPlace} {least more : Nat}
  {limit : Option Nat}

theorem spans_least_iff : Spans (.repeated ⟨least + 1, limit⟩ part) p q ↔
    ∃ r, part.Spans p r ∧ Spans (.repeated ⟨least, limit⟩ part) r q := by
  constructor
  · intro h
    cases h with
    | least h hrest => exact ⟨_, h, hrest⟩
  · rintro ⟨r, h, hrest⟩
    exact .least h hrest

theorem spans_zero_iff : Spans (.repeated ⟨0, some 0⟩ part) p q ↔ q = p := by
  constructor
  · intro h
    cases h with
    | enough => rfl
  · rintro rfl
    exact .enough

theorem spans_more_iff : Spans (.repeated ⟨0, some (more + 1)⟩ part) p q ↔
    q = p ∨ ∃ r, part.Spans p r ∧ Spans (.repeated ⟨0, some more⟩ part) r q := by
  constructor
  · intro h
    cases h with
    | enough => exact Or.inl rfl
    | more h hrest => exact Or.inr ⟨_, h, hrest⟩
  · rintro (rfl | ⟨r, h, hrest⟩)
    · exact .enough
    · exact .more h hrest

theorem spans_again_iff : Spans (.repeated ⟨0, none⟩ part) p q ↔
    q = p ∨ ∃ r, part.Spans p r ∧ Spans (.repeated ⟨0, none⟩ part) r q := by
  constructor
  · intro h
    cases h with
    | enough => exact Or.inl rfl
    | again h hrest => exact Or.inr ⟨_, h, hrest⟩
  · rintro (rfl | ⟨r, h, hrest⟩)
    · exact .enough
    · exact .again h hrest

theorem Spans.allow_one_more (h : Spans (.repeated ⟨0, some more⟩ part) p q) :
    Spans (.repeated ⟨0, some (more + 1)⟩ part) p q := by
  induction more generalizing p with
  | zero =>
      obtain rfl := spans_zero_iff.mp h
      exact .enough
  | succ more ih =>
      obtain rfl | ⟨r, hpart, hrest⟩ := spans_more_iff.mp h
      · exact .enough
      · exact .more hpart (ih hrest)

theorem spans_replicate_more_iff (hpart : ∀ p q, m.Spans p q ↔ part.Spans p q) :
    MarkedPattern.Spans (.sequence (List.replicate more (.repeated true false m))) p q ↔
      Spans (.repeated ⟨0, some more⟩ part) p q := by
  induction more generalizing p with
  | zero => rw [List.replicate_zero, spans_nil_iff, spans_zero_iff]
  | succ more ih =>
      simp only [List.replicate_succ, spans_cons_iff, spans_optional_iff, hpart, ih]
      constructor
      · rintro ⟨r, rfl | h, hrest⟩
        · exact hrest.allow_one_more
        · exact .more h hrest
      · intro h
        obtain rfl | ⟨r, h, hrest⟩ := spans_more_iff.mp h
        · exact ⟨q, Or.inl rfl, .enough⟩
        · exact ⟨r, Or.inr h, hrest⟩

theorem spans_of_spans_repeated {mayMiss : Bool} (hpart : ∀ p q, m.Spans p q ↔ part.Spans p q)
    (h : MarkedPattern.Spans (.repeated mayMiss true m) p q) :
    Spans (.repeated ⟨0, none⟩ part) p q := by
  generalize hm : MarkedPattern.repeated mayMiss true m = marked at h
  induction h with
  | missed => exact .enough
  | once h =>
      cases hm
      exact .again ((hpart _ _).mp h) .enough
  | again h hrest ih ihrest =>
      cases hm
      exact .again ((hpart _ _).mp h) (ihrest rfl)
  | _ => cases hm

theorem goesOn_of_spans (mayMiss : Bool) (hpart : ∀ p q, m.Spans p q ↔ part.Spans p q)
    (h : Spans (.repeated ⟨0, none⟩ part) p q) : GoesOn mayMiss true m p q := by
  generalize hm : Pattern.repeated ⟨0, none⟩ part = repetition at h
  induction h with
  | enough => exact Or.inl rfl
  | again h hrest ih ihrest =>
      cases hm
      refine Or.inr ⟨rfl, spans_repeated_iff.mpr (Or.inr ⟨_, (hpart _ _).mpr h, ihrest rfl⟩)⟩
  | _ => cases hm

/-- Copies without a limit: they may be missing, or the first is there and any number behind it. -/
theorem spans_unlimited_iff {mayMiss : Bool} (hpart : ∀ p q, m.Spans p q ↔ part.Spans p q) :
    MarkedPattern.Spans (.repeated mayMiss true m) p q ↔
      mayMiss = true ∧ q = p ∨
        ∃ r, part.Spans p r ∧ Spans (.repeated ⟨0, none⟩ part) r q := by
  rw [spans_repeated_iff]
  refine or_congr_right (exists_congr fun r => and_congr (hpart p r) ?_)
  constructor
  · rintro (rfl | ⟨-, h⟩)
    · exact .enough
    · exact spans_of_spans_repeated hpart h
  · exact goesOn_of_spans mayMiss hpart

theorem spans_replicate_least_iff {later : List MarkedPattern} (base : Nat)
    (hpart : ∀ p q, m.Spans p q ↔ part.Spans p q)
    (hlater : ∀ p q, MarkedPattern.Spans (.sequence later) p q ↔
      Spans (.repeated ⟨base, limit⟩ part) p q) :
    MarkedPattern.Spans (.sequence (List.replicate least m ++ later)) p q ↔
      Spans (.repeated ⟨least + base, limit⟩ part) p q := by
  induction least generalizing p with
  | zero => rw [List.replicate_zero, List.nil_append, hlater, Nat.zero_add]
  | succ least ih =>
      rw [List.replicate_succ, List.cons_append, spans_cons_iff, Nat.succ_add, spans_least_iff]
      exact exists_congr fun r => and_congr (hpart p r) ih

theorem spans_writeOut_iff (times : Repetition) (hpart : ∀ p q, m.Spans p q ↔ part.Spans p q)
    (p q : TextPlace) : (times.writeOut m).Spans p q ↔ Spans (.repeated times part) p q := by
  have hunlimited : ∀ mayMiss p q,
      MarkedPattern.Spans (.sequence [.repeated mayMiss true m]) p q ↔
        mayMiss = true ∧ q = p ∨
          ∃ r, part.Spans p r ∧ Spans (.repeated ⟨0, none⟩ part) r q := by
    intro mayMiss p q
    simp only [spans_cons_iff, spans_nil_iff, spans_unlimited_iff hpart]
    grind
  obtain ⟨least, _ | more⟩ := times
  · cases least with
    | zero =>
        refine (hunlimited true p q).trans ?_
        rw [spans_again_iff]
        simp
    | succ least =>
        refine spans_replicate_least_iff 1 hpart fun p q => ?_
        rw [hunlimited, spans_least_iff]
        simp
  · exact spans_replicate_least_iff 0 hpart fun p q => spans_replicate_more_iff hpart

mutual

theorem spans_unmarked_iff : ∀ (pattern : Pattern) (p q : TextPlace),
    pattern.unmarked.Spans p q ↔ pattern.Spans p q
  | .char set, p, q => by
      constructor
      · intro h
        cases h with
        | char hc => exact .char hc
      · intro h
        cases h with
        | char hc => exact .char hc
  | .anchor place, p, q => by
      constructor
      · intro h
        cases h with
        | anchor hholds => exact .anchor hholds
      · intro h
        cases h with
        | anchor hholds => exact .anchor hholds
  | .group part, p, q => by
      rw [unmarked, spans_unmarked_iff part]
      constructor
      · exact .group
      · intro h
        cases h with
        | group h => exact h
  | .repeated times part, p, q => spans_writeOut_iff times (spans_unmarked_iff part) p q
  | .sequence parts, p, q => spans_unmarkedAll_sequence_iff parts p q
  | .choice options, p, q => spans_unmarkedAll_choice_iff options p q

theorem spans_unmarkedAll_sequence_iff : ∀ (parts : List Pattern) (p q : TextPlace),
    MarkedPattern.Spans (.sequence (unmarkedAll parts)) p q ↔ Spans (.sequence parts) p q
  | [], p, q => by
      rw [unmarkedAll, spans_nil_iff]
      constructor
      · rintro rfl
        exact .nil
      · intro h
        cases h with
        | nil => rfl
  | part :: parts, p, q => by
      rw [unmarkedAll, spans_cons_iff]
      simp only [spans_unmarked_iff part, spans_unmarkedAll_sequence_iff parts]
      constructor
      · rintro ⟨r, h, hrest⟩
        exact .cons h hrest
      · intro h
        cases h with
        | cons h hrest => exact ⟨_, h, hrest⟩

theorem spans_unmarkedAll_choice_iff : ∀ (options : List Pattern) (p q : TextPlace),
    MarkedPattern.Spans (.choice (unmarkedAll options)) p q ↔ Spans (.choice options) p q
  | [], p, q => by
      constructor
      · exact fun h => absurd h MarkedPattern.not_spans_none
      · intro h
        cases h with
        | choice hmem h => exact absurd hmem List.not_mem_nil
  | option :: options, p, q => by
      rw [unmarkedAll, MarkedPattern.spans_option_iff, spans_unmarked_iff option,
        spans_unmarkedAll_choice_iff options]
      constructor
      · rintro (h | h)
        · exact .choice List.mem_cons_self h
        · cases h with
          | choice hmem h => exact .choice (List.mem_cons_of_mem _ hmem) h
      · intro h
        cases h with
        | choice hmem h =>
            obtain rfl | hmem := List.mem_cons.mp hmem
            · exact Or.inl h
            · exact Or.inr (.choice hmem h)

end

theorem not_finishes_writeOut (times : Repetition) (hnone : ∀ p q, ¬ m.Finishes p q) :
    ¬ (times.writeOut m).Finishes p q := by
  intro h
  obtain ⟨part, hmem, p, q, hpart⟩ := MarkedPattern.exists_of_finishes_sequence h
  have hcopy : part = m ∨ ∃ mayMiss mayGoOn, part = .repeated mayMiss mayGoOn m := by
    obtain ⟨least, _ | more⟩ := times <;> simp at hmem <;> grind
  obtain rfl | ⟨mayMiss, mayGoOn, rfl⟩ := hcopy
  · exact hnone p q hpart
  · obtain ⟨r, hpart, -⟩ := MarkedPattern.finishes_repeated_iff.mp hpart
    exact hnone p r hpart

mutual

theorem not_finishes_unmarked : ∀ (pattern : Pattern) (p q : TextPlace),
    ¬ pattern.unmarked.Finishes p q
  | .char _, _, _ => nofun
  | .anchor _, _, _ => nofun
  | .group part, p, q => not_finishes_unmarked part p q
  | .repeated times part, _, _ => not_finishes_writeOut times (not_finishes_unmarked part)
  | .sequence parts, p, q => not_finishes_unmarkedAll_sequence parts p q
  | .choice options, p, q => not_finishes_unmarkedAll_choice options p q

theorem not_finishes_unmarkedAll_sequence : ∀ (parts : List Pattern) (p q : TextPlace),
    ¬ MarkedPattern.Finishes (.sequence (unmarkedAll parts)) p q
  | [], p, q => MarkedPattern.not_finishes_nil
  | part :: parts, p, q => by
      rw [unmarkedAll, MarkedPattern.finishes_cons_iff]
      rintro (⟨r, h, -⟩ | h)
      · exact not_finishes_unmarked part p r h
      · exact not_finishes_unmarkedAll_sequence parts p q h

theorem not_finishes_unmarkedAll_choice : ∀ (options : List Pattern) (p q : TextPlace),
    ¬ MarkedPattern.Finishes (.choice (unmarkedAll options)) p q
  | [], p, q => MarkedPattern.not_finishes_none
  | option :: options, p, q => by
      rw [unmarkedAll, MarkedPattern.finishes_option_iff]
      rintro (h | h)
      · exact not_finishes_unmarked option p q h
      · exact not_finishes_unmarkedAll_choice options p q h

end

/-- The search finds out whether the pattern spans from some place of the text. -/
theorem occursIn_iff (pattern : Pattern) (text : List Char) :
    pattern.occursIn text = true ↔ ∃ p q, Leads ⟨none, text⟩ p ∧ pattern.Spans p q := by
  rw [occursIn, MarkedPattern.searchBehind_iff]
  simp only [not_finishes_unmarked, exists_false, false_or, spans_unmarked_iff]

end Pattern

/-- An expected pattern is met by the errors whose text has a place from which the pattern spans. -/
theorem Assertion.verify_errorPattern_iff {assertion : Assertion} {text : String}
    {pattern : Pattern} (hpart : assertion.error = none)
    (htext : assertion.errorPattern = some text) (hread : Pattern.ofText text = .ok pattern)
    (result : Except String Value) :
    assertion.verify result = .ok () ↔ ∃ message, result = .error message ∧
      ∃ p q, Leads ⟨none, message.toList⟩ p ∧ pattern.Spans p q := by
  have hcompile : PatternEngine.compile text = .ok pattern.occursIn := by
    simp only [PatternEngine.compile, hread]
  simp only [verify, hpart, htext, hcompile]
  cases result with
  | error message =>
      have hoccurs := Pattern.occursIn_iff pattern message.toList
      rw [expectError]
      split
      · rename_i hfound
        exact ⟨fun _ => ⟨message, rfl, hoccurs.mp hfound⟩, fun _ => rfl⟩
      · rename_i hmissing
        constructor
        · exact nofun
        · rintro ⟨_, ⟨⟩, h⟩
          exact absurd (hoccurs.mpr h) hmissing
  | ok actual => simp [expectError]

/-- The text has to end with the word. -/
example :
    let assertion : Assertion := { errorPattern := some "(?i)EXPECTED \\w\x7b3\x7d$" }
    (assertion.verify (.error "expected Int")).isOk = true ∧
      (assertion.verify (.error "expected Int, got Bool")).isOk = false := by
  decide +kernel

end MethodSynthesis
