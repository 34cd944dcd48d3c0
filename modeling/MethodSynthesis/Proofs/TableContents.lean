import Mathlib.Data.List.Dedup
import Mathlib.Data.List.Sort
import MethodSynthesis.Table.Basic

/-!
# Contents of tables

A table in key order is determined by its lookup and has one entry for each key. A table filled by
inserting bindings one after the other answers with the last binding of a key.
-/

namespace MethodSynthesis

/-! ## The last binding of a key -/

section LastValue

variable {κ ν : Type} [DecidableEq κ]

/-- The value of the last binding of a key. -/
def lastValue? (bindings : List (κ × ν)) (key : κ) : Option ν :=
  (bindings.reverse.find? fun b => b.1 = key).map Prod.snd

@[simp] theorem lastValue?_nil (key : κ) : lastValue? ([] : List (κ × ν)) key = none := rfl

theorem lastValue?_append (xs ys : List (κ × ν)) (key : κ) :
    lastValue? (xs ++ ys) key = (lastValue? ys key).or (lastValue? xs key) := by
  simp [lastValue?, List.find?_append, Option.map_or]

theorem lastValue?_singleton (binding : κ × ν) (key : κ) :
    lastValue? [binding] key = if binding.1 = key then some binding.2 else none := by
  by_cases h : binding.1 = key <;> simp [lastValue?, h]

theorem lastValue?_map_snd {μ : Type} (f : ν → μ) (bindings : List (κ × ν)) (key : κ) :
    lastValue? (bindings.map fun b => (b.1, f b.2)) key = (lastValue? bindings key).map f := by
  simp [lastValue?, ← List.map_reverse, List.find?_map, Option.map_map, Function.comp_def]

theorem lastValue?_eq_none_iff {bindings : List (κ × ν)} {key : κ} :
    lastValue? bindings key = none ↔ ∀ b ∈ bindings, b.1 ≠ key := by
  simp [lastValue?]

theorem lastValue?_eq_some_iff {bindings : List (κ × ν)} {key : κ} {value : ν} :
    lastValue? bindings key = some value ↔
      ∃ before after, bindings = before ++ (key, value) :: after ∧ ∀ b ∈ after, b.1 ≠ key := by
  constructor
  · intro h
    obtain ⟨⟨k, v⟩, hfound, rfl⟩ := Option.map_eq_some_iff.mp h
    obtain ⟨hk, front, back, hsplit, hfront⟩ := List.find?_eq_some_iff_append.mp hfound
    have hk : k = key := by simpa using hk
    subst hk
    refine ⟨back.reverse, front.reverse, ?_, fun b hb => ?_⟩
    · have := congrArg List.reverse hsplit
      simpa using this
    · simpa using hfront b (List.mem_reverse.mp hb)
  · intro h
    obtain ⟨before, after, rfl, hafter⟩ := h
    have hnone : lastValue? after key = none := lastValue?_eq_none_iff.mpr hafter
    rw [← List.singleton_append, lastValue?_append, lastValue?_append, hnone,
      lastValue?_singleton]
    simp

theorem mem_of_lastValue?_eq_some {bindings : List (κ × ν)} {key : κ} {value : ν}
    (h : lastValue? bindings key = some value) : (key, value) ∈ bindings := by
  obtain ⟨before, after, rfl, -⟩ := lastValue?_eq_some_iff.mp h
  simp

theorem lastValue?_eq_some_of_nodup {bindings : List (κ × ν)} (h : (bindings.map Prod.fst).Nodup)
    {key : κ} {value : ν} (hmem : (key, value) ∈ bindings) :
    lastValue? bindings key = some value := by
  obtain ⟨before, after, rfl⟩ := List.append_of_mem hmem
  refine lastValue?_eq_some_iff.mpr ⟨before, after, rfl, fun b hb heq => ?_⟩
  rw [List.map_append, List.map_cons] at h
  have hfresh := (List.nodup_cons.mp (List.nodup_append.mp h).2.1).1
  exact hfresh (List.mem_map.mpr ⟨b, hb, heq⟩)

theorem lastValue?_flatMap_of_split {α : Type} {f : α → List (κ × ν)} {before after : List α}
    {a : α} {key : κ} {value : ν} (hafter : ∀ b ∈ after, ∀ y ∈ f b, y.1 ≠ key)
    (hlast : lastValue? (f a) key = some value) :
    lastValue? ((before ++ a :: after).flatMap f) key = some value := by
  have hnone : lastValue? (after.flatMap f) key = none := by
    refine lastValue?_eq_none_iff.mpr fun y hy => ?_
    obtain ⟨b, hb, hyb⟩ := List.mem_flatMap.mp hy
    exact hafter b hb y hyb
  rw [List.flatMap_append, List.flatMap_cons, lastValue?_append, lastValue?_append, hnone, hlast]
  rfl

/-- Where no key occurs in two groups, the last binding of a key is the last one of its group. -/
theorem lastValue?_flatMap {α : Type} {f : α → List (κ × ν)} {groups : List α}
    (h : groups.Pairwise fun a b => ∀ x ∈ f a, ∀ y ∈ f b, x.1 ≠ y.1) {key : κ} {value : ν} :
    lastValue? (groups.flatMap f) key = some value ↔
      ∃ a ∈ groups, lastValue? (f a) key = some value := by
  induction groups with
  | nil => simp
  | cons a rest ih =>
      obtain ⟨hapart, hrest⟩ := List.pairwise_cons.mp h
      rw [List.flatMap_cons, lastValue?_append, List.exists_mem_cons_iff, ← ih hrest,
        Option.or_eq_some_iff]
      constructor
      · intro h
        rcases h with hlater | ⟨-, hself⟩
        · exact Or.inr hlater
        · exact Or.inl hself
      · intro h
        rcases h with hself | hlater
        · refine Or.inr ⟨lastValue?_eq_none_iff.mpr fun y hy => ?_, hself⟩
          obtain ⟨b, hb, hyb⟩ := List.mem_flatMap.mp hy
          exact (hapart b hb _ (mem_of_lastValue?_eq_some hself) y hyb).symm
        · exact Or.inl hlater

end LastValue

namespace Table

variable {κ ν : Type} [Ord κ]

/-! ## Tables in key order -/

theorem mem_keys_iff [Std.LawfulEqOrd κ] {t : Table κ ν} (h : t.Ordered) (key : κ) :
    key ∈ t.keys ↔ ∃ value, t.get? key = some value := by
  simp only [keys, List.mem_map, Prod.exists, exists_and_right, exists_eq_right]
  exact exists_congr fun value => mem_entries_iff h key value

theorem nodup_keys [Std.TransOrd κ] {t : Table κ ν} (h : t.Ordered) :
    t.keys.Nodup := by
  refine List.pairwise_map.mpr (List.Pairwise.imp (fun {a b} hlt heq => ?_) h)
  rw [heq, Std.ReflOrd.compare_self] at hlt
  cases hlt

theorem eq_of_get?_eq [Std.TransOrd κ] [Std.LawfulEqOrd κ] {t u : Table κ ν} (ht : t.Ordered)
    (hu : u.Ordered) (h : ∀ key, t.get? key = u.get? key) : t = u := by
  have hmem : ∀ entry, entry ∈ t.entries ↔ entry ∈ u.entries := by
    intro ⟨key, value⟩
    rw [mem_entries_iff ht, mem_entries_iff hu, h key]
  let before := fun a b : κ × ν => compare a.1 b.1 = .lt
  have : Std.Irrefl before := ⟨fun a hlt => by
    simp only [before, Std.ReflOrd.compare_self] at hlt
    cases hlt⟩
  have : Std.Antisymm before := ⟨fun _ _ hab hba => absurd hba (Std.OrientedCmp.not_lt_of_lt hab)⟩
  obtain ⟨entries⟩ := t
  obtain ⟨entries'⟩ := u
  exact congrArg Table.mk (List.Pairwise.eq_of_mem_iff (r := before) ht hu hmem)

/-! ## Tables filled by insertion -/

def insertAll (t : Table κ ν) (bindings : List (κ × ν)) : Table κ ν :=
  bindings.foldl (fun t b => t.insert b.1 b.2) t

theorem insertAll_append_singleton (t : Table κ ν) (bindings : List (κ × ν)) (b : κ × ν) :
    t.insertAll (bindings ++ [b]) = (t.insertAll bindings).insert b.1 b.2 := by
  simp [insertAll]

theorem ordered_insertAll [Std.TransOrd κ] [Std.LawfulEqOrd κ] {t : Table κ ν} (h : t.Ordered)
    (bindings : List (κ × ν)) : (t.insertAll bindings).Ordered := by
  induction bindings generalizing t with
  | nil => exact h
  | cons b rest ih => exact ih (ordered_insert h b.1 b.2)

variable [Std.LawfulEqOrd κ] [DecidableEq κ]

theorem get?_insertAll (t : Table κ ν) (bindings : List (κ × ν)) (key : κ) :
    (t.insertAll bindings).get? key = (lastValue? bindings key).or (t.get? key) := by
  induction bindings generalizing t with
  | nil => rfl
  | cons b rest ih =>
      have hinsert : (t.insert b.1 b.2).get? key = (lastValue? [b] key).or (t.get? key) := by
        rw [get?_insert, lastValue?_singleton]
        by_cases h : key = b.1
        · simp [h]
        · simp [h, Ne.symm h]
      have hcons : lastValue? (b :: rest) key = (lastValue? rest key).or (lastValue? [b] key) :=
        lastValue?_append [b] rest key
      calc (t.insertAll (b :: rest)).get? key
          = (lastValue? rest key).or ((t.insert b.1 b.2).get? key) := ih (t.insert b.1 b.2)
        _ = (lastValue? (b :: rest) key).or (t.get? key) := by
            rw [hinsert, hcons, Option.or_assoc]

@[simp] theorem get?_insertAll_empty (bindings : List (κ × ν)) (key : κ) :
    (empty.insertAll bindings).get? key = lastValue? bindings key := by
  simp [get?_insertAll]

theorem size_insertAll_empty [Std.TransOrd κ] (bindings : List (κ × ν)) :
    (empty.insertAll bindings).size = (bindings.map Prod.fst).dedup.length := by
  have hordered : (empty.insertAll bindings).Ordered := ordered_insertAll ordered_empty bindings
  have hmem : ∀ key,
      key ∈ (empty.insertAll bindings).keys ↔ key ∈ (bindings.map Prod.fst).dedup := by
    intro key
    rw [mem_keys_iff hordered, ← Option.isSome_iff_exists, get?_insertAll_empty, List.mem_dedup,
      Option.isSome_iff_ne_none, ne_eq, lastValue?_eq_none_iff]
    simp
  have hperm := (List.perm_ext_iff_of_nodup (nodup_keys hordered) (List.nodup_dedup _)).mpr hmem
  rw [← hperm.length_eq, size, keys, List.length_map]

end Table

end MethodSynthesis
