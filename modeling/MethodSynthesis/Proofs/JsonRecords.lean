import Mathlib.Data.List.Forall2
import MethodSynthesis.Definition.Json

/-!
# Written records read back

A record is written as an object from which the fields without a value are left out. When its keys
are distinct each of them finds its own member again, or finds none.
-/

namespace MethodSynthesis.Json

open ItemDefinition (optionalMember)

variable {α β : Type}

/-! ## Members -/

theorem filter_optionalMember (key name : String) (value : Option Json) :
    (optionalMember name value).filter (fun member => member.1 = some key) =
      if name = key then optionalMember name value else [] := by
  cases value <;> by_cases h : name = key <;> simp [optionalMember, h]

/-- The members of a record, without those that have no value. -/
def recordMembers (fields : List (String × Option Json)) : List (Option String × Json) :=
  fields.flatMap fun field => optionalMember field.1 field.2

theorem filter_recordMembers_absent {fields : List (String × Option Json)} {key : String}
    (h : key ∉ fields.map Prod.fst) :
    (recordMembers fields).filter (fun member => member.1 = some key) = [] := by
  rw [recordMembers, List.filter_flatMap, List.flatMap_eq_nil_iff]
  intro field hfield
  have hne : field.1 ≠ key := fun heq => h (heq ▸ List.mem_map_of_mem hfield)
  rw [filter_optionalMember, if_neg hne]

theorem filter_recordMembers {fields : List (String × Option Json)}
    (hnodup : (fields.map Prod.fst).Nodup) {field : String × Option Json} (hmem : field ∈ fields) :
    (recordMembers fields).filter (fun member => member.1 = some field.1) =
      optionalMember field.1 field.2 := by
  induction fields with
  | nil => cases hmem
  | cons first fields ih =>
      rw [List.map_cons, List.nodup_cons] at hnodup
      rw [recordMembers, List.flatMap_cons, List.filter_append, filter_optionalMember]
      rcases List.mem_cons.1 hmem with rfl | hmem
      · rw [if_pos rfl]
        exact (congrArg _ (filter_recordMembers_absent hnodup.1)).trans (List.append_nil _)
      · have hne : first.1 ≠ field.1 := fun heq => hnodup.1 (heq ▸ List.mem_map_of_mem hmem)
        rw [if_neg hne, List.nil_append]
        exact ih hnodup.2 hmem

theorem memberValue?_recordMembers {fields : List (String × Option Json)}
    (hnodup : (fields.map Prod.fst).Nodup) {field : String × Option Json} (hmem : field ∈ fields) :
    memberValue? (recordMembers fields) field.1 = some field.2 := by
  rw [memberValue?, filter_recordMembers hnodup hmem]
  cases field.2 <;> rfl

theorem isSome_of_mem_recordMembers {fields : List (String × Option Json)}
    {member : Option String × Json} (h : member ∈ recordMembers fields) : member.1.isSome = true := by
  obtain ⟨field, -, hmember⟩ := List.mem_flatMap.1 h
  cases hvalue : field.2 with
  | none => simp [optionalMember, hvalue] at hmember
  | some value =>
      simp only [optionalMember, hvalue, List.mem_singleton] at hmember
      simp [hmember]

/-! ## Lists -/

theorem mapM_eq_some_iff {f : α → Option β} {xs : List α} {ys : List β} :
    xs.mapM f = some ys ↔ List.Forall₂ (fun x y => f x = some y) xs ys := by
  induction xs generalizing ys with
  | nil => simp [eq_comm]
  | cons x xs ih =>
      simp only [List.mapM_cons, Option.bind_eq_bind, Option.bind_eq_some_iff, Option.pure_def,
        Option.some.injEq, List.forall₂_cons_left_iff, ih]
      constructor
      · rintro ⟨y, hy, ys, hys, rfl⟩
        exact ⟨y, ys, hy, hys, rfl⟩
      · rintro ⟨y, ys, hy, hys, rfl⟩
        exact ⟨y, hy, ys, hys, rfl⟩

theorem mapM_map_eq_some_iff {read : β → Option α} {write : α → β} {xs : List α} :
    (xs.map write).mapM read = some xs ↔ ∀ x ∈ xs, read (write x) = some x := by
  rw [mapM_eq_some_iff, List.forall₂_map_left_iff, List.forall₂_same]

theorem exists_of_mem_of_mapM {f : α → Option β} {xs : List α} {ys : List β}
    (h : xs.mapM f = some ys) : ∀ y ∈ ys, ∃ x, f x = some y := by
  rw [mapM_eq_some_iff] at h
  induction h with
  | nil => simp
  | cons hfirst _ ih =>
      intro y hy
      rcases List.mem_cons.1 hy with rfl | hy
      · exact ⟨_, hfirst⟩
      · exact ih y hy

/-! ## Written records -/

/-- A record that was written is read field by field. -/
theorem fields?_recordMembers {fields : List (String × Option Json)}
    (hnodup : (fields.map Prod.fst).Nodup) :
    (Json.object (recordMembers fields)).fields? (fields.map Prod.fst) =
      some (fields.map Prod.snd) := by
  have hkeys : (recordMembers fields).all (fun member => member.1.isSome) = true :=
    List.all_eq_true.2 fun member hmember => isSome_of_mem_recordMembers hmember
  rw [fields?, if_pos hkeys, mapM_eq_some_iff, List.forall₂_map_left_iff,
    List.forall₂_map_right_iff, List.forall₂_same]
  exact fun field hfield => memberValue?_recordMembers hnodup hfield

end MethodSynthesis.Json
