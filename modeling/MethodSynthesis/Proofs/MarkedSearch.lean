import MethodSynthesis.Proofs.MarkedSpans

/-!
# The search with marks

The marks stand for the occurrences under way: behind each character the pattern can be finished
from its marks in the ways in which it could be gone through from the place before. So the search
finds out whether the pattern spans from any place of the text.
-/

namespace MethodSynthesis

open TextPlace

namespace MarkedPattern

variable {part option m : MarkedPattern} {parts options : List MarkedPattern} {p q : TextPlace}
  {mayMiss mayGoOn entered : Bool}

/-! ## Passing -/

/-- The pattern matches from its start, if it is entered, or from one of its marks. -/
def Goes (entered : Bool) (m : MarkedPattern) (p q : TextPlace) : Prop :=
  entered = true ∧ m.Spans p q ∨ m.Finishes p q

theorem Goes.leads (h : Goes entered m p q) : p.Leads q := by
  obtain ⟨-, h⟩ | h := h
  · exact h.leads
  · exact h.leads

theorem goes_repeated_iff : Goes entered (.repeated mayMiss mayGoOn part) p q ↔
    entered = true ∧ mayMiss = true ∧ q = p ∨
      ∃ r, Goes entered part p r ∧ GoesOn mayMiss mayGoOn part r q := by
  simp only [Goes, spans_repeated_iff, finishes_repeated_iff]
  grind

theorem goes_cons_iff : Goes entered (.sequence (part :: parts)) p q ↔
    (∃ r, Goes entered part p r ∧ Spans (.sequence parts) r q) ∨
      Finishes (.sequence parts) p q := by
  simp only [Goes, spans_cons_iff, finishes_cons_iff]
  grind

theorem goes_option_iff : Goes entered (.choice (option :: options)) p q ↔
    Goes entered option p q ∨ Goes entered (.choice options) p q := by
  simp only [Goes, spans_option_iff, finishes_option_iff]
  grind

mutual

theorem isPassed_iff : ∀ (m : MarkedPattern) (entered : Bool) (p : TextPlace),
    m.isPassed entered p.before p.rest.head? = true ↔ Goes entered m p p
  | .char set reached, entered, p => by
      simp [isPassed, Goes, not_spans_char_self, finishes_char_iff]
  | .anchor place, entered, p => by
      simp [isPassed, Goes, spans_anchor_iff, not_finishes_anchor]
  | .repeated mayMiss mayGoOn part, entered, p => by
      rw [isPassed, Bool.or_eq_true, Bool.and_eq_true, isPassed_iff part, goes_repeated_iff]
      constructor
      · rintro (⟨hentered, hmiss⟩ | h)
        · exact Or.inl ⟨hentered, hmiss, rfl⟩
        · exact Or.inr ⟨p, h, Or.inl rfl⟩
      · rintro (⟨hentered, hmiss, -⟩ | ⟨r, h, hgoesOn⟩)
        · exact Or.inl ⟨hentered, hmiss⟩
        · obtain rfl := h.leads.antisymm hgoesOn.leads
          exact Or.inr h
  | .sequence parts, entered, p => isPassedThrough_iff parts entered p
  | .choice options, entered, p => isPassedInSome_iff options entered p

theorem isPassedThrough_iff : ∀ (parts : List MarkedPattern) (entered : Bool) (p : TextPlace),
    isPassedThrough entered p.before p.rest.head? parts = true ↔ Goes entered (.sequence parts) p p
  | [], entered, p => by simp [isPassedThrough, Goes, spans_nil_iff, not_finishes_nil]
  | part :: parts, entered, p => by
      rw [isPassedThrough, isPassedThrough_iff parts, goes_cons_iff, Goes, isPassed_iff part]
      refine or_congr_left ?_
      constructor
      · rintro ⟨h, hrest⟩
        exact ⟨p, h, hrest⟩
      · rintro ⟨r, h, hrest⟩
        obtain rfl := h.leads.antisymm hrest.leads
        exact ⟨h, hrest⟩

theorem isPassedInSome_iff : ∀ (options : List MarkedPattern) (entered : Bool) (p : TextPlace),
    isPassedInSome entered p.before p.rest.head? options = true ↔ Goes entered (.choice options) p p
  | [], entered, p => by simp [isPassedInSome, Goes, not_spans_none, not_finishes_none]
  | option :: options, entered, p => by
      rw [isPassedInSome, Bool.or_eq_true, isPassed_iff option, isPassedInSome_iff options,
        goes_option_iff]

end

/-! ## Moving over a character -/

theorem spans_repeated_mono {other : MarkedPattern}
    (hpart : ∀ p q, part.Spans p q → other.Spans p q)
    (h : Spans (.repeated mayMiss mayGoOn part) p q) :
    Spans (.repeated mayMiss mayGoOn other) p q := by
  generalize hm : MarkedPattern.repeated mayMiss mayGoOn part = m at h
  induction h with
  | missed =>
      cases hm
      exact .missed
  | once h =>
      cases hm
      exact .once (hpart _ _ h)
  | again h hrest ih ihrest =>
      cases hm
      exact .again (hpart _ _ h) (ihrest rfl)
  | _ => cases hm

-- The marks are not looked at by what is matched from the start.
mutual

theorem spans_advance_iff : ∀ (m : MarkedPattern) (entered : Bool) (before : Option Char) (c : Char)
    (p q : TextPlace), (m.advance entered before c).Spans p q ↔ m.Spans p q
  | .char set reached, entered, before, c, p, q => by
      constructor
      · intro h
        cases h with
        | char hc => exact .char hc
      · intro h
        cases h with
        | char hc => exact .char hc
  | .anchor place, entered, before, c, p, q => Iff.rfl
  | .repeated mayMiss mayGoOn part, entered, before, c, p, q =>
      ⟨spans_repeated_mono fun p q => (spans_advance_iff part _ before c p q).mp,
        spans_repeated_mono fun p q => (spans_advance_iff part _ before c p q).mpr⟩
  | .sequence parts, entered, before, c, p, q =>
      spans_advanceThrough_iff parts entered before c p q
  | .choice options, entered, before, c, p, q => spans_advanceEach_iff options entered before c p q

theorem spans_advanceThrough_iff : ∀ (parts : List MarkedPattern) (entered : Bool)
    (before : Option Char) (c : Char) (p q : TextPlace),
    Spans (.sequence (advanceThrough entered before c parts)) p q ↔ Spans (.sequence parts) p q
  | [], entered, before, c, p, q => Iff.rfl
  | part :: parts, entered, before, c, p, q => by
      rw [advanceThrough, spans_cons_iff, spans_cons_iff]
      refine exists_congr fun r => and_congr (spans_advance_iff part entered before c p r) ?_
      exact spans_advanceThrough_iff parts _ before c r q

theorem spans_advanceEach_iff : ∀ (options : List MarkedPattern) (entered : Bool)
    (before : Option Char) (c : Char) (p q : TextPlace),
    Spans (.choice (advanceEach entered before c options)) p q ↔ Spans (.choice options) p q
  | [], entered, before, c, p, q => Iff.rfl
  | option :: options, entered, before, c, p, q => by
      rw [advanceEach, spans_option_iff, spans_option_iff, spans_advance_iff option,
        spans_advanceEach_iff options]

end

/-- A repetition that moves on does so with one of its copies; those before it match nothing. -/
theorem exists_moved_of_spans_repeated (h : Spans (.repeated mayMiss mayGoOn part) p q)
    (hne : q ≠ p) : ∃ r, r ≠ p ∧ part.Spans p r ∧ GoesOn mayMiss mayGoOn part r q := by
  generalize hm : MarkedPattern.repeated mayMiss mayGoOn part = m at h
  induction h with
  | missed => exact absurd rfl hne
  | once h =>
      cases hm
      exact ⟨_, hne, h, Or.inl rfl⟩
  | @again mayMiss part p r q h hrest ih ihrest =>
      cases hm
      by_cases hstays : r = p
      · subst hstays
        exact ihrest hne rfl
      · exact ⟨r, hstays, h, Or.inr ⟨rfl, hrest⟩⟩
  | _ => cases hm

/-- The part is entered once more where it has been passed, which the marks tell before the move. -/
theorem goes_repeated_moved_iff {again : Bool}
    (hagain : again = true ↔ mayGoOn = true ∧ Goes entered part p p) :
    Goes entered (.repeated mayMiss mayGoOn part) p q ∧ q ≠ p ↔
      ∃ r, (Goes (entered || again) part p r ∧ r ≠ p) ∧ GoesOn mayMiss mayGoOn part r q := by
  rw [goes_repeated_iff]
  constructor
  · rintro ⟨⟨-, -, hstays⟩ | ⟨r, h, hgoesOn⟩, hne⟩
    · exact absurd hstays hne
    by_cases hstays : r = p
    · subst hstays
      obtain rfl | ⟨hmay, hspans⟩ := hgoesOn
      · exact absurd rfl hne
      obtain ⟨r', hmoved, hpart, hrest⟩ := exists_moved_of_spans_repeated hspans hne
      have hentered : (entered || again) = true := by simp [hagain.mpr ⟨hmay, h⟩]
      exact ⟨r', ⟨Or.inl ⟨hentered, hpart⟩, hmoved⟩, hrest⟩
    · refine ⟨r, ⟨?_, hstays⟩, hgoesOn⟩
      exact h.imp_left fun h => ⟨by simp [h.1], h.2⟩
  · rintro ⟨r, ⟨h, hmoved⟩, hgoesOn⟩
    have hne : q ≠ p := by
      rintro rfl
      exact hmoved (h.leads.antisymm hgoesOn.leads)
    refine ⟨Or.inr ?_, hne⟩
    obtain ⟨hentered, hspans⟩ | hfinishes := h
    · obtain hentered | hagain' := Bool.or_eq_true_iff.mp hentered
      · exact ⟨r, Or.inl ⟨hentered, hspans⟩, hgoesOn⟩
      · obtain ⟨hmay, hpassed⟩ := hagain.mp hagain'
        exact ⟨p, hpassed, Or.inr ⟨hmay, spans_repeated_iff.mpr (Or.inr ⟨r, hspans, hgoesOn⟩)⟩⟩
    · exact ⟨r, Or.inr hfinishes, hgoesOn⟩

theorem goes_cons_moved_iff {passed : Bool} (hpassed : passed = true ↔ Goes entered part p p) :
    Goes entered (.sequence (part :: parts)) p q ∧ q ≠ p ↔
      (∃ r, (Goes entered part p r ∧ r ≠ p) ∧ Spans (.sequence parts) r q) ∨
        Goes passed (.sequence parts) p q ∧ q ≠ p := by
  rw [goes_cons_iff]
  constructor
  · rintro ⟨⟨r, h, hrest⟩ | h, hne⟩
    · by_cases hstays : r = p
      · subst hstays
        exact Or.inr ⟨Or.inl ⟨hpassed.mpr h, hrest⟩, hne⟩
      · exact Or.inl ⟨r, ⟨h, hstays⟩, hrest⟩
    · exact Or.inr ⟨Or.inr h, hne⟩
  · rintro (⟨r, ⟨h, hmoved⟩, hrest⟩ | ⟨⟨hentered, hrest⟩ | h, hne⟩)
    · refine ⟨Or.inl ⟨r, h, hrest⟩, ?_⟩
      rintro rfl
      exact hmoved (h.leads.antisymm hrest.leads)
    · exact ⟨Or.inl ⟨p, hpassed.mp hentered, hrest⟩, hne⟩
    · exact ⟨Or.inr h, hne⟩

mutual

/-- Behind a character the pattern is finished from the marks as it goes from the place before. -/
theorem finishes_advance_iff : ∀ (m : MarkedPattern) (entered : Bool) (before : Option Char)
    (c : Char) (rest : List Char) (q : TextPlace),
    (m.advance entered before c).Finishes ⟨some c, rest⟩ q ↔
      Goes entered m ⟨before, c :: rest⟩ q ∧ q ≠ ⟨before, c :: rest⟩
  | .char set reached, entered, before, c, rest, q => by
      rw [advance, finishes_char_iff, Goes, spans_char_iff, finishes_char_iff, Bool.and_eq_true]
      have hnext : q = ⟨some c, rest⟩ → q ≠ ⟨before, c :: rest⟩ := by
        rintro rfl
        exact ne_of_next (.refl _)
      grind
  | .anchor place, entered, before, c, rest, q => by
      rw [advance, Goes, spans_anchor_iff]
      constructor
      · exact fun h => absurd h not_finishes_anchor
      · rintro ⟨⟨-, hstays, -⟩ | h, hne⟩
        · exact absurd hstays hne
        · exact absurd h not_finishes_anchor
  | .repeated mayMiss mayGoOn part, entered, before, c, rest, q => by
      have hagain : (mayGoOn && part.isPassed entered before (some c)) = true ↔
          mayGoOn = true ∧ Goes entered part ⟨before, c :: rest⟩ ⟨before, c :: rest⟩ := by
        rw [Bool.and_eq_true, ← isPassed_iff]
        rfl
      rw [goes_repeated_moved_iff hagain, advance, finishes_repeated_iff]
      refine exists_congr fun r => and_congr (finishes_advance_iff part _ before c rest r) ?_
      refine or_congr_right (and_congr_right fun _ => ?_)
      exact spans_advance_iff (.repeated mayMiss mayGoOn part) entered before c r q
  | .sequence parts, entered, before, c, rest, q =>
      finishes_advanceThrough_iff parts entered before c rest q
  | .choice options, entered, before, c, rest, q =>
      finishes_advanceEach_iff options entered before c rest q

theorem finishes_advanceThrough_iff : ∀ (parts : List MarkedPattern) (entered : Bool)
    (before : Option Char) (c : Char) (rest : List Char) (q : TextPlace),
    Finishes (.sequence (advanceThrough entered before c parts)) ⟨some c, rest⟩ q ↔
      Goes entered (.sequence parts) ⟨before, c :: rest⟩ q ∧ q ≠ ⟨before, c :: rest⟩
  | [], entered, before, c, rest, q => by
      simp [advanceThrough, Goes, spans_nil_iff, not_finishes_nil]
  | part :: parts, entered, before, c, rest, q => by
      have hpassed : part.isPassed entered before (some c) = true ↔
          Goes entered part ⟨before, c :: rest⟩ ⟨before, c :: rest⟩ := by
        rw [← isPassed_iff]
        rfl
      rw [goes_cons_moved_iff hpassed, advanceThrough, finishes_cons_iff,
        finishes_advanceThrough_iff parts]
      refine or_congr_left (exists_congr fun r => ?_)
      rw [finishes_advance_iff part, spans_advanceThrough_iff parts]

theorem finishes_advanceEach_iff : ∀ (options : List MarkedPattern) (entered : Bool)
    (before : Option Char) (c : Char) (rest : List Char) (q : TextPlace),
    Finishes (.choice (advanceEach entered before c options)) ⟨some c, rest⟩ q ↔
      Goes entered (.choice options) ⟨before, c :: rest⟩ q ∧ q ≠ ⟨before, c :: rest⟩
  | [], entered, before, c, rest, q => by
      simp [advanceEach, Goes, not_spans_none, not_finishes_none]
  | option :: options, entered, before, c, rest, q => by
      rw [advanceEach, finishes_option_iff, finishes_advance_iff option,
        finishes_advanceEach_iff options, goes_option_iff, or_and_right]

end

/-! ## The search -/

theorem searchBehind_iff (m : MarkedPattern) (before : Option Char) (text : List Char) :
    m.searchBehind before text = true ↔
      (∃ q, m.Finishes ⟨before, text⟩ q) ∨ ∃ p q, Leads ⟨before, text⟩ p ∧ m.Spans p q := by
  induction text generalizing m before with
  | nil =>
      have hpassed := isPassed_iff m true ⟨before, []⟩
      rw [searchBehind]
      refine hpassed.trans ?_
      constructor
      · rintro (⟨-, h⟩ | h)
        · exact Or.inr ⟨_, _, .refl _, h⟩
        · exact Or.inl ⟨_, h⟩
      · rintro (⟨q, h⟩ | ⟨p, q, hp, h⟩)
        · rw [leads_nil_iff.mp h.leads] at h
          exact Or.inr h
        · obtain rfl := leads_nil_iff.mp hp
          rw [leads_nil_iff.mp h.leads] at h
          exact Or.inl ⟨rfl, h⟩
  | cons c rest ih =>
      have hpassed := isPassed_iff m true ⟨before, c :: rest⟩
      -- Whatever goes from here either stays here or is finished behind the character.
      have hgoes : ∀ {q}, Goes true m ⟨before, c :: rest⟩ q →
          m.isPassed true before (some c) = true ∨
            ∃ q, (m.advance true before c).Finishes ⟨some c, rest⟩ q := by
        intro q h
        by_cases hstays : q = ⟨before, c :: rest⟩
        · subst hstays
          exact Or.inl (hpassed.mpr h)
        · exact Or.inr ⟨q, (finishes_advance_iff m true before c rest q).mpr ⟨h, hstays⟩⟩
      rw [searchBehind, Bool.or_eq_true, ih, ← or_assoc]
      constructor
      · rintro ((h | ⟨q, h⟩) | ⟨p, q, hp, h⟩)
        · obtain ⟨-, h⟩ | h := hpassed.mp h
          · exact Or.inr ⟨_, _, .refl _, h⟩
          · exact Or.inl ⟨_, h⟩
        · obtain ⟨⟨-, h⟩ | h, -⟩ := (finishes_advance_iff m true before c rest q).mp h
          · exact Or.inr ⟨_, _, .refl _, h⟩
          · exact Or.inl ⟨_, h⟩
        · exact Or.inr ⟨p, q, (Leads.next before c rest).trans hp,
            (spans_advance_iff m true before c p q).mp h⟩
      · rintro (⟨q, h⟩ | ⟨p, q, hp, h⟩)
        · exact Or.inl (hgoes (Or.inr h))
        · obtain rfl | hp := leads_cons_iff.mp hp
          · exact Or.inl (hgoes (Or.inl ⟨rfl, h⟩))
          · exact Or.inr ⟨p, q, hp, (spans_advance_iff m true before c p q).mpr h⟩

end MarkedPattern

end MethodSynthesis
