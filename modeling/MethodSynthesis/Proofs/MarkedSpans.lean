import MethodSynthesis.Pattern.Search

/-!
# What marked patterns match

A pattern spans from one place of a text to another one behind it, from its start or from one of its
marks. Marks are set in the middle of a text, so what is left of the pattern behind them is told
apart from the pattern as a whole.
-/

namespace MethodSynthesis

/-! ## Places -/

/-- A place in a text, by the character before it and the text behind it. -/
structure TextPlace where
  before : Option Char
  rest : List Char

namespace TextPlace

variable {p q r : TextPlace} {c : Char} {before : Option Char} {rest : List Char}

/-- The other place is this one or lies behind it. -/
def Leads (p q : TextPlace) : Prop :=
  ∃ part, p.rest = part ++ q.rest ∧ q.before = part.getLast?.or p.before

theorem Leads.refl (p : TextPlace) : p.Leads p := ⟨[], rfl, rfl⟩

theorem Leads.trans (h : p.Leads q) (hrest : q.Leads r) : p.Leads r := by
  obtain ⟨part, hpart, hbefore⟩ := h
  obtain ⟨next, hnext, hlast⟩ := hrest
  refine ⟨part ++ next, ?_, ?_⟩
  · rw [hpart, hnext, List.append_assoc]
  · rw [hlast, hbefore, List.getLast?_append, Option.or_assoc]

theorem Leads.length_le (h : p.Leads q) : q.rest.length ≤ p.rest.length := by
  obtain ⟨part, hpart, -⟩ := h
  rw [hpart, List.length_append]
  omega

theorem Leads.eq_of_length_le (h : p.Leads q) (hlength : p.rest.length ≤ q.rest.length) :
    q = p := by
  obtain ⟨part, hpart, hbefore⟩ := h
  have hnil : part = [] := by
    rw [hpart, List.length_append] at hlength
    exact List.eq_nil_of_length_eq_zero (by omega)
  subst hnil
  cases p
  cases q
  simp_all

theorem Leads.antisymm (h : p.Leads q) (hback : q.Leads p) : q = p :=
  h.eq_of_length_le hback.length_le

theorem Leads.next (before : Option Char) (c : Char) (rest : List Char) :
    Leads ⟨before, c :: rest⟩ ⟨some c, rest⟩ := ⟨[c], rfl, rfl⟩

theorem leads_nil_iff : Leads ⟨before, []⟩ q ↔ q = ⟨before, []⟩ := by
  constructor
  · intro h
    exact h.eq_of_length_le (Nat.zero_le _)
  · rintro rfl
    exact .refl _

theorem leads_cons_iff : Leads ⟨before, c :: rest⟩ q ↔
    q = ⟨before, c :: rest⟩ ∨ Leads ⟨some c, rest⟩ q := by
  constructor
  · rintro ⟨part, hpart, hbefore⟩
    cases part with
    | nil =>
        left
        cases q
        simp_all
    | cons first part =>
        right
        obtain ⟨rfl, hrest⟩ := List.cons.inj hpart
        refine ⟨part, hrest, ?_⟩
        rw [hbefore, List.getLast?_cons]
        cases part.getLast? <;> rfl
  · rintro (rfl | h)
    · exact .refl _
    · exact (Leads.next before c rest).trans h

theorem ne_of_next (h : Leads ⟨some c, rest⟩ q) : q ≠ ⟨before, c :: rest⟩ := by
  rintro rfl
  have hlength := h.length_le
  simp only [List.length_cons] at hlength
  omega

end TextPlace

open TextPlace

/-! ## Spans -/

namespace MarkedPattern

/-- The text from one place to another matches the pattern, whatever its marks are. -/
inductive Spans : MarkedPattern → TextPlace → TextPlace → Prop
  | char {set : CharSet} {reached : Bool} {before : Option Char} {c : Char} {rest : List Char}
      (hc : set.contains c = true) : Spans (.char set reached) ⟨before, c :: rest⟩ ⟨some c, rest⟩
  | anchor {place : Anchor} {p : TextPlace} (hholds : place.holds p.before p.rest.head? = true) :
      Spans (.anchor place) p p
  | missed {mayGoOn : Bool} {part : MarkedPattern} {p : TextPlace} :
      Spans (.repeated true mayGoOn part) p p
  | once {mayMiss mayGoOn : Bool} {part : MarkedPattern} {p q : TextPlace} (h : Spans part p q) :
      Spans (.repeated mayMiss mayGoOn part) p q
  | again {mayMiss : Bool} {part : MarkedPattern} {p r q : TextPlace} (h : Spans part p r)
      (hrest : Spans (.repeated mayMiss true part) r q) : Spans (.repeated mayMiss true part) p q
  | nil {p : TextPlace} : Spans (.sequence []) p p
  | cons {part : MarkedPattern} {parts : List MarkedPattern} {p r q : TextPlace}
      (h : Spans part p r) (hrest : Spans (.sequence parts) r q) :
      Spans (.sequence (part :: parts)) p q
  | choice {option : MarkedPattern} {options : List MarkedPattern} {p q : TextPlace}
      (hmem : option ∈ options) (h : Spans option p q) : Spans (.choice options) p q

/-- What is left of the pattern behind one of its marks matches from one place to another. -/
inductive Finishes : MarkedPattern → TextPlace → TextPlace → Prop
  | char {set : CharSet} {p : TextPlace} : Finishes (.char set true) p p
  | once {mayMiss mayGoOn : Bool} {part : MarkedPattern} {p q : TextPlace} (h : Finishes part p q) :
      Finishes (.repeated mayMiss mayGoOn part) p q
  | again {mayMiss : Bool} {part : MarkedPattern} {p r q : TextPlace} (h : Finishes part p r)
      (hrest : Spans (.repeated mayMiss true part) r q) : Finishes (.repeated mayMiss true part) p q
  | here {part : MarkedPattern} {parts : List MarkedPattern} {p r q : TextPlace}
      (h : Finishes part p r) (hrest : Spans (.sequence parts) r q) :
      Finishes (.sequence (part :: parts)) p q
  | behind {part : MarkedPattern} {parts : List MarkedPattern} {p q : TextPlace}
      (h : Finishes (.sequence parts) p q) : Finishes (.sequence (part :: parts)) p q
  | choice {option : MarkedPattern} {options : List MarkedPattern} {p q : TextPlace}
      (hmem : option ∈ options) (h : Finishes option p q) : Finishes (.choice options) p q

variable {part option m : MarkedPattern} {parts options : List MarkedPattern} {p q r : TextPlace}
  {set : CharSet} {place : Anchor} {reached mayMiss mayGoOn entered : Bool} {c : Char}
  {before : Option Char} {rest : List Char}

theorem Spans.leads (h : m.Spans p q) : p.Leads q := by
  induction h with
  | char hc => exact .next _ _ _
  | anchor hholds => exact .refl _
  | missed => exact .refl _
  | once h ih => exact ih
  | again h hrest ih ihrest => exact ih.trans ihrest
  | nil => exact .refl _
  | cons h hrest ih ihrest => exact ih.trans ihrest
  | choice hmem h ih => exact ih

theorem Finishes.leads (h : m.Finishes p q) : p.Leads q := by
  induction h with
  | char => exact .refl _
  | once h ih => exact ih
  | again h hrest ih => exact ih.trans hrest.leads
  | here h hrest ih => exact ih.trans hrest.leads
  | behind h ih => exact ih
  | choice hmem h ih => exact ih

/-! ## One constructor at a time -/

theorem spans_char_iff : Spans (.char set reached) ⟨before, c :: rest⟩ q ↔
    set.contains c = true ∧ q = ⟨some c, rest⟩ := by
  constructor
  · intro h
    cases h with
    | char hc => exact ⟨hc, rfl⟩
  · rintro ⟨hc, rfl⟩
    exact .char hc

theorem not_spans_char_self : ¬ Spans (.char set reached) p p := by
  intro h
  cases h

theorem finishes_char_iff : Finishes (.char set reached) p q ↔ reached = true ∧ q = p := by
  constructor
  · intro h
    cases h with
    | char => exact ⟨rfl, rfl⟩
  · rintro ⟨rfl, rfl⟩
    exact .char

theorem spans_anchor_iff :
    Spans (.anchor place) p q ↔ q = p ∧ place.holds p.before p.rest.head? = true := by
  constructor
  · intro h
    cases h with
    | anchor hholds => exact ⟨rfl, hholds⟩
  · rintro ⟨rfl, hholds⟩
    exact .anchor hholds

/-- How a repetition goes on behind the part: it ends there, or it starts once more. -/
def GoesOn (mayMiss mayGoOn : Bool) (part : MarkedPattern) (r q : TextPlace) : Prop :=
  q = r ∨ mayGoOn = true ∧ Spans (.repeated mayMiss mayGoOn part) r q

theorem spans_repeated_iff : Spans (.repeated mayMiss mayGoOn part) p q ↔
    mayMiss = true ∧ q = p ∨ ∃ r, part.Spans p r ∧ GoesOn mayMiss mayGoOn part r q := by
  constructor
  · intro h
    cases h with
    | missed => exact Or.inl ⟨rfl, rfl⟩
    | once h => exact Or.inr ⟨q, h, Or.inl rfl⟩
    | again h hrest => exact Or.inr ⟨_, h, Or.inr ⟨rfl, hrest⟩⟩
  · rintro (⟨rfl, rfl⟩ | ⟨r, h, rfl | ⟨rfl, hrest⟩⟩)
    · exact .missed
    · exact .once h
    · exact .again h hrest

theorem spans_optional_iff :
    Spans (.repeated true false part) p q ↔ q = p ∨ part.Spans p q := by
  rw [spans_repeated_iff]
  constructor
  · rintro (⟨-, rfl⟩ | ⟨r, h, rfl | ⟨⟨⟩, -⟩⟩)
    · exact Or.inl rfl
    · exact Or.inr h
  · rintro (rfl | h)
    · exact Or.inl ⟨rfl, rfl⟩
    · exact Or.inr ⟨q, h, Or.inl rfl⟩

theorem finishes_repeated_iff : Finishes (.repeated mayMiss mayGoOn part) p q ↔
    ∃ r, part.Finishes p r ∧ GoesOn mayMiss mayGoOn part r q := by
  constructor
  · intro h
    cases h with
    | once h => exact ⟨q, h, Or.inl rfl⟩
    | again h hrest => exact ⟨_, h, Or.inr ⟨rfl, hrest⟩⟩
  · rintro ⟨r, h, rfl | ⟨rfl, hrest⟩⟩
    · exact .once h
    · exact .again h hrest

theorem GoesOn.leads (h : GoesOn mayMiss mayGoOn part r q) : r.Leads q := by
  obtain rfl | ⟨-, hrest⟩ := h
  · exact .refl _
  · exact hrest.leads

theorem spans_nil_iff : Spans (.sequence []) p q ↔ q = p := by
  constructor
  · intro h
    cases h with
    | nil => rfl
  · rintro rfl
    exact .nil

theorem spans_cons_iff : Spans (.sequence (part :: parts)) p q ↔
    ∃ r, part.Spans p r ∧ Spans (.sequence parts) r q := by
  constructor
  · intro h
    cases h with
    | cons h hrest => exact ⟨_, h, hrest⟩
  · rintro ⟨r, h, hrest⟩
    exact .cons h hrest

theorem not_finishes_anchor : ¬ Finishes (.anchor place) p q := nofun

theorem not_finishes_nil : ¬ Finishes (.sequence []) p q := nofun

theorem finishes_cons_iff : Finishes (.sequence (part :: parts)) p q ↔
    (∃ r, part.Finishes p r ∧ Spans (.sequence parts) r q) ∨ Finishes (.sequence parts) p q := by
  constructor
  · intro h
    cases h with
    | here h hrest => exact Or.inl ⟨_, h, hrest⟩
    | behind h => exact Or.inr h
  · rintro (⟨r, h, hrest⟩ | h)
    · exact .here h hrest
    · exact .behind h

theorem not_spans_none : ¬ Spans (.choice []) p q := by
  intro h
  cases h with
  | choice hmem h => exact List.not_mem_nil hmem

theorem spans_option_iff : Spans (.choice (option :: options)) p q ↔
    option.Spans p q ∨ Spans (.choice options) p q := by
  constructor
  · intro h
    cases h with
    | choice hmem h =>
        obtain rfl | hmem := List.mem_cons.mp hmem
        · exact Or.inl h
        · exact Or.inr (.choice hmem h)
  · rintro (h | h)
    · exact .choice List.mem_cons_self h
    · cases h with
      | choice hmem h => exact .choice (List.mem_cons_of_mem _ hmem) h

theorem not_finishes_none : ¬ Finishes (.choice []) p q := by
  intro h
  cases h with
  | choice hmem h => exact List.not_mem_nil hmem

theorem finishes_option_iff : Finishes (.choice (option :: options)) p q ↔
    option.Finishes p q ∨ Finishes (.choice options) p q := by
  constructor
  · intro h
    cases h with
    | choice hmem h =>
        obtain rfl | hmem := List.mem_cons.mp hmem
        · exact Or.inl h
        · exact Or.inr (.choice hmem h)
  · rintro (h | h)
    · exact .choice List.mem_cons_self h
    · cases h with
      | choice hmem h => exact .choice (List.mem_cons_of_mem _ hmem) h

end MarkedPattern

end MethodSynthesis
