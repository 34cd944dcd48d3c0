/-!
# Tables in key order

A table is a list of bindings with strictly increasing keys. Its view is the lookup: inserting
changes it at one key, erasing forgets one key, and two tables in order with the same lookup are
the same list.
-/

namespace MethodSynthesis

structure Table (κ : Type) (ν : Type) where
  entries : List (κ × ν) := []
  deriving DecidableEq

namespace Table

variable {κ ν : Type} [Ord κ]

def empty : Table κ ν := ⟨[]⟩

instance : Inhabited (Table κ ν) := ⟨empty⟩

def keys (t : Table κ ν) : List κ := t.entries.map Prod.fst

def size (t : Table κ ν) : Nat := t.entries.length

def isEmpty (t : Table κ ν) : Bool := t.entries.isEmpty

def lookup (key : κ) : List (κ × ν) → Option ν
  | [] => none
  | (k, v) :: rest => if compare key k = .eq then some v else lookup key rest

def get? (t : Table κ ν) (key : κ) : Option ν := lookup key t.entries

def contains (t : Table κ ν) (key : κ) : Bool := (t.get? key).isSome

/-- Puts a binding in front of the first greater key, in the place of an equal one. -/
def insertEntry (key : κ) (value : ν) : List (κ × ν) → List (κ × ν)
  | [] => [(key, value)]
  | (k, v) :: rest =>
      match compare key k with
      | .lt => (key, value) :: (k, v) :: rest
      | .eq => (key, value) :: rest
      | .gt => (k, v) :: insertEntry key value rest

def insert (t : Table κ ν) (key : κ) (value : ν) : Table κ ν := ⟨insertEntry key value t.entries⟩

def erase (t : Table κ ν) (key : κ) : Table κ ν :=
  ⟨t.entries.filter fun entry => compare key entry.1 ≠ .eq⟩

def Ordered (t : Table κ ν) : Prop :=
  t.entries.Pairwise fun a b => compare a.1 b.1 = .lt

/-! ## Lookup after a change -/

theorem ordered_empty : (empty : Table κ ν).Ordered := List.Pairwise.nil

@[simp] theorem get?_empty (key : κ) : (empty : Table κ ν).get? key = none := rfl

theorem compare_of_mem_insertEntry {key k : κ} {value v : ν} {entries : List (κ × ν)}
    (h : (k, v) ∈ insertEntry key value entries) : k = key ∨ (k, v) ∈ entries := by
  induction entries with
  | nil => simp_all [insertEntry]
  | cons entry rest ih =>
      obtain ⟨k', v'⟩ := entry
      simp only [insertEntry] at h
      split at h
      · simp only [List.mem_cons, Prod.mk.injEq] at h ⊢
        rcases h with ⟨rfl, -⟩ | h
        · exact Or.inl rfl
        · exact Or.inr h
      · simp only [List.mem_cons, Prod.mk.injEq] at h ⊢
        rcases h with ⟨rfl, -⟩ | h
        · exact Or.inl rfl
        · exact Or.inr (Or.inr h)
      · simp only [List.mem_cons] at h ⊢
        rcases h with h | h
        · exact Or.inr (Or.inl h)
        · exact (ih h).imp_right Or.inr

theorem ordered_insert [Std.TransOrd κ] [Std.LawfulEqOrd κ] {t : Table κ ν} (h : t.Ordered)
    (key : κ) (value : ν) : (t.insert key value).Ordered := by
  obtain ⟨entries⟩ := t
  unfold Ordered insert at *
  induction entries with
  | nil => simp [insertEntry]
  | cons entry rest ih =>
      obtain ⟨k, v⟩ := entry
      rw [List.pairwise_cons] at h
      simp only [insertEntry]
      split
      · rename_i hlt
        refine List.pairwise_cons.mpr ⟨fun e he => ?_, List.pairwise_cons.mpr h⟩
        rcases List.mem_cons.mp he with rfl | he
        · exact hlt
        · exact Std.TransCmp.lt_trans hlt (h.1 e he)
      · rename_i heq
        refine List.pairwise_cons.mpr ⟨fun e he => ?_, h.2⟩
        rw [Std.LawfulEqOrd.eq_of_compare heq]
        exact h.1 e he
      · rename_i hgt
        refine List.pairwise_cons.mpr ⟨fun e he => ?_, ih h.2⟩
        rcases compare_of_mem_insertEntry (v := e.2) he with hk | he
        · rw [hk]
          exact Std.OrientedCmp.lt_of_gt hgt
        · exact h.1 e he

theorem ordered_erase {t : Table κ ν} (h : t.Ordered) (key : κ) : (t.erase key).Ordered :=
  List.Pairwise.sublist List.filter_sublist h

theorem get?_insert [Std.LawfulEqOrd κ] (t : Table κ ν) (key other : κ) (value : ν) :
    (t.insert key value).get? other =
      if compare other key = .eq then some value else t.get? other := by
  obtain ⟨entries⟩ := t
  simp only [get?, insert]
  induction entries with
  | nil => simp [insertEntry, lookup]
  | cons entry rest ih =>
      obtain ⟨k, v⟩ := entry
      simp only [insertEntry]
      split
      · simp [lookup]
      · rename_i heq
        cases Std.LawfulEqOrd.eq_of_compare heq
        by_cases h : compare other key = .eq <;> simp [lookup, h]
      · rename_i hgt
        simp only [lookup]
        rw [ih]
        by_cases h : compare other k = .eq
        · cases Std.LawfulEqOrd.eq_of_compare h
          have hne : compare other key ≠ .eq := by
            intro heq
            cases Std.LawfulEqOrd.eq_of_compare heq
            rw [h] at hgt
            cases hgt
          simp [hne]
        · simp [h]

theorem get?_erase [Std.LawfulEqOrd κ] (t : Table κ ν) (key other : κ) :
    (t.erase key).get? other = if compare other key = .eq then none else t.get? other := by
  obtain ⟨entries⟩ := t
  simp only [get?, erase]
  induction entries with
  | nil => simp [lookup]
  | cons entry rest ih =>
      obtain ⟨k, v⟩ := entry
      by_cases hk : compare key k = .eq
      · cases Std.LawfulEqOrd.eq_of_compare hk
        simp only [hk, ne_eq, not_true_eq_false, decide_false, Bool.false_eq_true,
          not_false_eq_true, List.filter_cons_of_neg, ih, lookup]
        by_cases h : compare other key = .eq <;> simp [h]
      · simp only [ne_eq, hk, not_false_eq_true, decide_true, List.filter_cons_of_pos, lookup]
        rw [ih]
        by_cases h : compare other k = .eq
        · cases Std.LawfulEqOrd.eq_of_compare h
          have hne : compare other key ≠ .eq := fun heq =>
            hk (by cases Std.LawfulEqOrd.eq_of_compare heq; exact h)
          simp [hne]
        · simp [h]

theorem lookup_eq_some_of_mem [Std.LawfulEqOrd κ] {key : κ} {value : ν} {entries : List (κ × ν)}
    (h : entries.Pairwise fun a b => compare a.1 b.1 = .lt) (hmem : (key, value) ∈ entries) :
    lookup key entries = some value := by
  induction entries with
  | nil => cases hmem
  | cons entry rest ih =>
      obtain ⟨k, v⟩ := entry
      rw [List.pairwise_cons] at h
      rcases List.mem_cons.mp hmem with heq | hrest
      · cases heq
        simp [lookup]
      · have hne : compare key k ≠ .eq := by
          intro heq
          cases Std.LawfulEqOrd.eq_of_compare heq
          have hlt := h.1 (key, value) hrest
          rw [heq] at hlt
          cases hlt
        simp [lookup, hne, ih h.2 hrest]

theorem mem_of_lookup_eq_some [Std.LawfulEqOrd κ] {key : κ} {value : ν} {entries : List (κ × ν)}
    (h : lookup key entries = some value) : (key, value) ∈ entries := by
  induction entries with
  | nil => cases h
  | cons entry rest ih =>
      obtain ⟨k, v⟩ := entry
      simp only [lookup] at h
      split at h
      · rename_i heq
        cases h
        rw [Std.LawfulEqOrd.eq_of_compare heq]
        exact List.mem_cons_self
      · exact List.mem_cons_of_mem _ (ih h)

/-- A table in order binds exactly its entries. -/
theorem mem_entries_iff [Std.LawfulEqOrd κ] {t : Table κ ν} (h : t.Ordered) (key : κ) (value : ν) :
    (key, value) ∈ t.entries ↔ t.get? key = some value :=
  ⟨lookup_eq_some_of_mem h, mem_of_lookup_eq_some⟩

end Table

end MethodSynthesis
