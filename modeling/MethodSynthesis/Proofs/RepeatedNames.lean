import Mathlib.Data.List.Nodup
import Mathlib.Tactic.Tauto
import MethodSynthesis.Definition.Basic

/-!
# Repeated item names

The check of the names passes exactly when no name stands twice, and else reports the first name
that an earlier item has already.
-/

namespace MethodSynthesis.Definition

def NamesDistinct (d : Definition) : Prop := (d.items.map ItemDefinition.name).Nodup

def RepeatsFirst (d : Definition) (name : String) : Prop :=
  ∃ before item later, d.items = before ++ item :: later ∧ item.name = name ∧
    (before.map ItemDefinition.name).Nodup ∧ name ∈ before.map ItemDefinition.name

theorem repeatedName?_eq_none_iff {seen names : List String} :
    repeatedName? seen names = none ↔ names.Nodup ∧ ∀ name ∈ names, name ∉ seen := by
  induction names generalizing seen with
  | nil => simp [repeatedName?]
  | cons name names ih =>
      rw [repeatedName?]
      by_cases hseen : name ∈ seen
      · simp [hseen]
      · rw [if_neg hseen, ih, List.nodup_cons]
        simp only [List.mem_cons, not_or, forall_eq_or_imp]
        constructor
        · rintro ⟨hnodup, hapart⟩
          exact ⟨⟨fun hmem => (hapart name hmem).1 rfl, hnodup⟩, hseen,
            fun other hother => (hapart other hother).2⟩
        · rintro ⟨⟨habsent, hnodup⟩, -, hapart⟩
          exact ⟨hnodup, fun other hother =>
            ⟨fun heq => habsent (heq ▸ hother), hapart other hother⟩⟩

/-- The names in front of the reported one are new and distinct; it is itself not new. -/
theorem repeatedName?_eq_some_iff {seen names : List String} {name : String} :
    repeatedName? seen names = some name ↔
      ∃ before later, names = before ++ name :: later ∧ before.Nodup ∧
        (∀ other ∈ before, other ∉ seen) ∧ (name ∈ seen ∨ name ∈ before) := by
  induction names generalizing seen with
  | nil => simp [repeatedName?]
  | cons first names ih =>
      rw [repeatedName?]
      by_cases hseen : first ∈ seen
      · rw [if_pos hseen, Option.some.injEq]
        constructor
        · rintro rfl
          exact ⟨[], names, rfl, List.nodup_nil, nofun, Or.inl hseen⟩
        · rintro ⟨before, later, hsplit, -, hapart, -⟩
          cases before with
          | nil => exact (List.cons.inj hsplit).1
          | cons head before =>
              obtain ⟨rfl, -⟩ := List.cons.inj hsplit
              exact absurd hseen (hapart first List.mem_cons_self)
      · have htaken (before : List String) : name ∈ first :: seen ∨ name ∈ before ↔
            name ∈ seen ∨ name ∈ first :: before := by
          simp only [List.mem_cons]
          tauto
        rw [if_neg hseen, ih]
        constructor
        · rintro ⟨before, later, rfl, hnodup, hapart, hname⟩
          have habsent : first ∉ before := fun hmem => hapart first hmem List.mem_cons_self
          refine ⟨first :: before, later, rfl, List.nodup_cons.mpr ⟨habsent, hnodup⟩, ?_,
            (htaken before).mp hname⟩
          exact List.forall_mem_cons.mpr
            ⟨hseen, fun other hother hmem => hapart other hother (List.mem_cons_of_mem _ hmem)⟩
        · rintro ⟨before, later, hsplit, hnodup, hapart, hname⟩
          cases before with
          | nil =>
              obtain ⟨rfl, -⟩ := List.cons.inj hsplit
              simp [hseen] at hname
          | cons head before =>
              obtain ⟨rfl, hrest⟩ := List.cons.inj hsplit
              obtain ⟨habsent, hdistinct⟩ := List.nodup_cons.mp hnodup
              refine ⟨before, later, hrest, hdistinct, ?_, (htaken before).mpr hname⟩
              intro other hother hmem
              rcases List.mem_cons.mp hmem with rfl | hold
              · exact habsent hother
              · exact hapart other (List.mem_cons_of_mem _ hother) hold

variable {d : Definition}

theorem checkNames_eq_ok_iff : d.checkNames = .ok () ↔ d.NamesDistinct := by
  have hnone : repeatedName? [] (d.items.map ItemDefinition.name) = none ↔ d.NamesDistinct := by
    simp [repeatedName?_eq_none_iff, NamesDistinct]
  rw [← hnone, checkNames]
  cases repeatedName? [] (d.items.map ItemDefinition.name) <;> simp

theorem checkNames_eq_error_iff {e : ItemError} :
    d.checkNames = .error e ↔ ∃ name, d.RepeatsFirst name ∧ e = .duplicateName d.name name := by
  have hsome (name : String) : repeatedName? [] (d.items.map ItemDefinition.name) = some name ↔
      d.RepeatsFirst name := by
    simp only [repeatedName?_eq_some_iff, List.not_mem_nil, not_false_eq_true, implies_true,
      true_and, false_or, List.map_eq_append_iff, List.map_eq_cons_iff, RepeatsFirst]
    constructor
    · rintro ⟨_, _, ⟨before, _, hitems, rfl, item, later, rfl, hname, -⟩, hnodup, hmem⟩
      exact ⟨before, item, later, hitems, hname, hnodup, hmem⟩
    · rintro ⟨before, item, later, hitems, hname, hnodup, hmem⟩
      exact ⟨_, _, ⟨before, _, hitems, rfl, item, later, rfl, hname, rfl⟩, hnodup, hmem⟩
  simp only [← hsome, checkNames]
  cases repeatedName? [] (d.items.map ItemDefinition.name) <;> simp [eq_comm]

end MethodSynthesis.Definition
