import MethodSynthesis.Table.Basic

/-!
# Searching a table by halves

Entries in key order can be searched by halves: the middle entry has the key, or it tells in which
half the key belongs. The search ends at the entry of the key, or in the gap where an entry of it
would have to stand. What is looked up is what stands there, and what is inserted comes to stand
there.
-/

namespace MethodSynthesis

theorem insertIdx_length_append {α : Type} (before behind : List α) (a : α) :
    (before ++ behind).insertIdx before.length a = before ++ a :: behind := by
  induction before with
  | nil => rfl
  | cons first rest ih =>
      rw [List.cons_append, List.length_cons, List.insertIdx_succ_cons, ih, List.cons_append]

namespace Table

variable {κ ν : Type} [Ord κ] {key k : κ} {value v : ν} {entries before behind : List (κ × ν)}

/-- Where a search ends: at the entry of a key, or where no entry of it stands. -/
inductive Place where
  | found (position : Nat)
  | gap (position : Nat)
  deriving DecidableEq

namespace Place

def shift (count : Nat) : Place → Place
  | found position => found (count + position)
  | gap position => gap (count + position)

def value? (entries : List (κ × ν)) : Place → Option ν
  | found position => entries[position]?.map Prod.snd
  | gap _ => none

def put (entry : κ × ν) (entries : List (κ × ν)) : Place → List (κ × ν)
  | found position => entries.set position entry
  | gap position => entries.insertIdx position entry

end Place

def bisect (key : κ) (entries : List (κ × ν)) : Place :=
  match _h : entries.drop (entries.length / 2) with
  | [] => .gap 0
  | (k, _) :: behind =>
      match compare key k with
      | .lt => bisect key (entries.take (entries.length / 2))
      | .eq => .found (entries.length / 2)
      | .gt => (bisect key behind).shift (entries.length / 2 + 1)
termination_by entries.length
decreasing_by
  all_goals
    have hlength := congrArg List.length _h
    simp only [List.length_drop, List.length_cons, List.length_take] at hlength ⊢
    omega

def insertByHalves (t : Table κ ν) (key : κ) (value : ν) : Table κ ν :=
  ⟨(bisect key t.entries).put (key, value) t.entries⟩

/-! ## Where a key belongs -/

/-- The place at which a key belongs: smaller keys stand in front of it and greater ones behind. -/
inductive Locates (key : κ) : List (κ × ν) → Place → Prop
  | found (before : List (κ × ν)) (value : ν) (behind : List (κ × ν))
      (hbefore : ∀ entry ∈ before, compare key entry.1 = .gt) :
      Locates key (before ++ (key, value) :: behind) (.found before.length)
  | gap (before behind : List (κ × ν)) (hbefore : ∀ entry ∈ before, compare key entry.1 = .gt)
      (hbehind : ∀ entry ∈ behind, compare key entry.1 = .lt) :
      Locates key (before ++ behind) (.gap before.length)

theorem Locates.append {place : Place} (h : Locates key before place)
    (hbehind : ∀ entry ∈ behind, compare key entry.1 = .lt) :
    Locates key (before ++ behind) place := by
  cases h with
  | found front value back hfront =>
      rw [List.append_assoc, List.cons_append]
      exact .found front value (back ++ behind) hfront
  | gap front back hfront hback =>
      rw [List.append_assoc]
      exact .gap front (back ++ behind) hfront (List.forall_mem_append.mpr ⟨hback, hbehind⟩)

theorem Locates.shift {place : Place} (h : Locates key behind place)
    (hbefore : ∀ entry ∈ before, compare key entry.1 = .gt) :
    Locates key (before ++ behind) (place.shift before.length) := by
  cases h with
  | found front value back hfront =>
      rw [← List.append_assoc, Place.shift, ← List.length_append]
      exact .found (before ++ front) value back (List.forall_mem_append.mpr ⟨hbefore, hfront⟩)
  | gap front back hfront hback =>
      rw [← List.append_assoc, Place.shift, ← List.length_append]
      exact .gap (before ++ front) back (List.forall_mem_append.mpr ⟨hbefore, hfront⟩) hback

/-- The search by halves ends where the key belongs. -/
theorem locates_bisect [Std.TransOrd κ] [Std.LawfulEqOrd κ] (key : κ)
    (hordered : entries.Pairwise fun a b => compare a.1 b.1 = .lt) :
    Locates key entries (bisect key entries) := by
  fun_induction bisect key entries with
  | case1 entries hnone =>
      have hlength := List.drop_eq_nil_iff.mp hnone
      have hnil : entries = [] := List.eq_nil_of_length_eq_zero (by omega)
      rw [hnil]
      exact .gap [] [] nofun nofun
  | case2 entries k v behind hmiddle hlt ih =>
      rw [← List.take_append_drop (entries.length / 2) entries, hmiddle] at hordered
      obtain ⟨hfront, hback, -⟩ := List.pairwise_append.mp hordered
      obtain ⟨hgreater, -⟩ := List.pairwise_cons.mp hback
      have hbehind : ∀ entry ∈ (k, v) :: behind, compare key entry.1 = .lt :=
        List.forall_mem_cons.mpr
          ⟨hlt, fun entry hentry => Std.TransCmp.lt_trans hlt (hgreater entry hentry)⟩
      have hlocated := (ih hfront).append hbehind
      rwa [← hmiddle, List.take_append_drop] at hlocated
  | case3 entries k v behind hmiddle heq =>
      obtain rfl := Std.LawfulEqOrd.eq_of_compare heq
      have hfirst : (entries.take (entries.length / 2)).length = entries.length / 2 := by
        rw [List.length_take]
        omega
      rw [← List.take_append_drop (entries.length / 2) entries, hmiddle] at hordered
      obtain ⟨-, -, hsmaller⟩ := List.pairwise_append.mp hordered
      have hlocated := Locates.found (entries.take (entries.length / 2)) v behind
        fun entry hentry => Std.OrientedCmp.gt_of_lt (hsmaller entry hentry _ List.mem_cons_self)
      rwa [← hmiddle, List.take_append_drop, hfirst] at hlocated
  | case4 entries k v behind hmiddle hgt ih =>
      have hfirst : (entries.take (entries.length / 2) ++ [(k, v)]).length =
          entries.length / 2 + 1 := by
        have hlength := congrArg List.length hmiddle
        simp only [List.length_drop, List.length_cons] at hlength
        simp only [List.length_append, List.length_take, List.length_singleton]
        omega
      rw [← List.take_append_drop (entries.length / 2) entries, hmiddle] at hordered
      obtain ⟨-, hback, hsmaller⟩ := List.pairwise_append.mp hordered
      obtain ⟨-, hbehind⟩ := List.pairwise_cons.mp hback
      have hbefore : ∀ entry ∈ entries.take (entries.length / 2) ++ [(k, v)],
          compare key entry.1 = .gt := by
        rw [List.forall_mem_append]
        constructor
        · intro entry hentry
          exact Std.TransCmp.gt_trans hgt
            (Std.OrientedCmp.gt_of_lt (hsmaller entry hentry _ List.mem_cons_self))
        · exact List.forall_mem_singleton.mpr hgt
      have hlocated := (ih hbehind).shift hbefore
      rwa [List.append_assoc, List.singleton_append, ← hmiddle, List.take_append_drop,
        hfirst] at hlocated

/-! ## Reading and writing there -/

theorem lookup_append_of_gt (hbefore : ∀ entry ∈ before, compare key entry.1 = .gt)
    (behind : List (κ × ν)) : lookup key (before ++ behind) = lookup key behind := by
  induction before with
  | nil => rfl
  | cons entry rest ih =>
      obtain ⟨hfirst, hrest⟩ := List.forall_mem_cons.mp hbefore
      simp only [List.cons_append, lookup, hfirst, reduceCtorEq, if_false, ih hrest]

theorem lookup_eq_none_of_lt (hbehind : ∀ entry ∈ behind, compare key entry.1 = .lt) :
    lookup key behind = none := by
  induction behind with
  | nil => rfl
  | cons entry rest ih =>
      obtain ⟨hfirst, hrest⟩ := List.forall_mem_cons.mp hbehind
      simp only [lookup, hfirst, reduceCtorEq, if_false, ih hrest]

theorem insertEntry_append_of_gt (hbefore : ∀ entry ∈ before, compare key entry.1 = .gt)
    (behind : List (κ × ν)) :
    insertEntry key value (before ++ behind) = before ++ insertEntry key value behind := by
  induction before with
  | nil => rfl
  | cons entry rest ih =>
      obtain ⟨hfirst, hrest⟩ := List.forall_mem_cons.mp hbefore
      simp only [List.cons_append, insertEntry, hfirst, ih hrest]

theorem insertEntry_of_lt (hbehind : ∀ entry ∈ behind, compare key entry.1 = .lt) :
    insertEntry key value behind = (key, value) :: behind := by
  cases behind with
  | nil => rfl
  | cons entry rest => simp only [insertEntry, hbehind entry List.mem_cons_self]

variable {place : Place}

theorem lookup_of_locates [Std.ReflOrd κ] (h : Locates key entries place) :
    lookup key entries = place.value? entries := by
  cases h with
  | found before value behind hbefore =>
      simp [lookup_append_of_gt hbefore, lookup, Place.value?]
  | gap before behind hbefore hbehind =>
      rw [lookup_append_of_gt hbefore, lookup_eq_none_of_lt hbehind, Place.value?]

theorem insertEntry_of_locates [Std.ReflOrd κ] (h : Locates key entries place) (value : ν) :
    insertEntry key value entries = place.put (key, value) entries := by
  cases h with
  | found before old behind hbefore =>
      simp [insertEntry_append_of_gt hbefore, insertEntry, Place.put]
  | gap before behind hbefore hbehind =>
      rw [insertEntry_append_of_gt hbefore, insertEntry_of_lt hbehind, Place.put,
        insertIdx_length_append]

theorem insertByHalves_eq [Std.TransOrd κ] [Std.LawfulEqOrd κ] {t : Table κ ν} (h : t.Ordered)
    (key : κ) (value : ν) : t.insertByHalves key value = t.insert key value := by
  rw [insertByHalves, insert, insertEntry_of_locates (locates_bisect key h)]

end Table

end MethodSynthesis
