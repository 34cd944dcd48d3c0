import Mathlib.Algebra.Ring.Nat
import Mathlib.Logic.Relation
import MethodSynthesis.Operation.Hierarchy

/-!
# Supertypes are what declared steps reach

A search for supertypes takes pending names until none is left. Every name is expanded once, so the
bases of the names not found yet bound the turns ahead, on cycles too. What is found is closed under
direct bases up to what is pending; in the end it is all that can be reached.
-/

namespace MethodSynthesis

open Relation

namespace TypeHierarchy

variable {h other : TypeHierarchy} {name sub base : String}

/-- One declared step, from a type to a direct base. -/
def HasBase (h : TypeHierarchy) (sub base : String) : Prop := base ∈ h.bases sub

/-! ## Searches -/

structure Search where
  pending : List String
  seen : List String

namespace Search

def start (h : TypeHierarchy) (name : String) : Search := ⟨h.bases name, []⟩

/-- A turn takes any of the pending names. One that was found before is dropped; any other is found
now, and its bases become pending. In which order names are pending is left open. -/
inductive Turn (h : TypeHierarchy) : Search → Search → Prop
  | drop {name : String} {pending rest seen : List String} (htaken : pending.Perm (name :: rest))
      (hknown : name ∈ seen) : Turn h ⟨pending, seen⟩ ⟨rest, seen⟩
  | expand {name : String} {pending rest later seen : List String}
      (htaken : pending.Perm (name :: rest)) (hfresh : name ∉ seen)
      (hlater : later.Perm (h.bases name ++ rest)) :
      Turn h ⟨pending, seen⟩ ⟨later, name :: seen⟩

/-! ### Every search ends -/

/-- How many bases the declarations of names not found yet have. -/
def basesAhead (entries : List (String × List String)) (seen : List String) : Nat :=
  (entries.map fun entry => if entry.1 ∈ seen then 0 else entry.2.length).sum

theorem basesAhead_nil (h : TypeHierarchy) :
    basesAhead h.declared.entries [] = h.baseCount := by
  simp [basesAhead, baseCount, List.length_flatMap]

theorem basesAhead_entry (entry : String × List String) (rest : List (String × List String))
    (seen : List String) :
    basesAhead (entry :: rest) seen =
      (if entry.1 ∈ seen then 0 else entry.2.length) + basesAhead rest seen := by
  simp [basesAhead]

theorem basesAhead_cons_le (entries : List (String × List String)) (name : String)
    (seen : List String) : basesAhead entries (name :: seen) ≤ basesAhead entries seen := by
  induction entries with
  | nil => exact Nat.le_refl _
  | cons entry rest ih =>
      rw [basesAhead_entry, basesAhead_entry]
      by_cases hseen : entry.1 ∈ seen
      · simp only [hseen, List.mem_cons_of_mem, if_true]
        omega
      · simp only [hseen, if_false]
        split <;> omega

/-- A name that is found takes its own bases away from those ahead. -/
theorem length_bases_add_basesAhead_le {seen : List String} (hfresh : name ∉ seen) :
    (h.bases name).length + basesAhead h.declared.entries (name :: seen) ≤
      basesAhead h.declared.entries seen := by
  unfold bases Table.get?
  induction h.declared.entries with
  | nil => simp [Table.lookup, basesAhead]
  | cons entry rest ih =>
      obtain ⟨key, direct⟩ := entry
      rw [basesAhead_entry, basesAhead_entry]
      by_cases hkey : name = key
      · have hrest := basesAhead_cons_le rest name seen
        subst hkey
        simp only [Table.lookup, Std.ReflOrd.compare_self, if_true, Option.getD_some,
          List.mem_cons_self, hfresh, if_false]
        omega
      · have hcompare : compare name key ≠ .eq := fun heq =>
          hkey (Std.LawfulEqOrd.eq_of_compare heq)
        simp only [Table.lookup, hcompare, if_false, List.mem_cons, Ne.symm hkey, false_or]
        omega

/-- The turns that may be left: pending names and the bases that are still to become pending. -/
def work (h : TypeHierarchy) (s : Search) : Nat :=
  s.pending.length + basesAhead h.declared.entries s.seen

theorem work_start (h : TypeHierarchy) (name : String) :
    work h (start h name) = (h.bases name).length + h.baseCount := by
  rw [work, start, basesAhead_nil]

theorem work_lt_of_turn {s t : Search} (hturn : s.Turn h t) : work h t < work h s := by
  cases hturn with
  | drop htaken hknown =>
      have hlength := htaken.length_eq
      simp only [work, List.length_cons] at hlength ⊢
      omega
  | expand htaken hfresh hlater =>
      have hlength := htaken.length_eq
      have hadded := hlater.length_eq
      have hahead := length_bases_add_basesAhead_le (h := h) hfresh
      simp only [work, List.length_cons, List.length_append] at hlength hadded ⊢
      omega

theorem wellFounded_turn (h : TypeHierarchy) :
    WellFounded fun later earlier : Search => earlier.Turn h later :=
  Subrelation.wf work_lt_of_turn (measure (work h)).wf

/-! ### What a search finds -/

/-- What is pending or found can be reached, and what is found is closed under direct bases up to
what is pending. -/
structure Explores (h : TypeHierarchy) (name : String) (s : Search) : Prop where
  reached : ∀ found, found ∈ s.pending ∨ found ∈ s.seen → TransGen h.HasBase name found
  direct : ∀ base ∈ h.bases name, base ∈ s.pending ∨ base ∈ s.seen
  closed : ∀ found ∈ s.seen, ∀ base ∈ h.bases found, base ∈ s.pending ∨ base ∈ s.seen
  distinct : s.seen.Nodup

theorem explores_start (h : TypeHierarchy) (name : String) : Explores h name (start h name) where
  reached found hfound := by
    have hbase : found ∈ h.bases name := by simpa [start] using hfound
    exact TransGen.single hbase
  direct base hbase := Or.inl hbase
  closed found hfound := by cases hfound
  distinct := List.nodup_nil

theorem explores_turn {s t : Search} (hs : Explores h name s) (hturn : s.Turn h t) :
    Explores h name t := by
  cases hturn with
  | @drop taken pending rest seen htaken hknown =>
      -- A dropped name is found already, so nothing leaves both lists.
      have hmove : ∀ {x}, x ∈ pending ∨ x ∈ seen → x ∈ rest ∨ x ∈ seen := by
        intro x hx
        rw [htaken.mem_iff, List.mem_cons] at hx
        rcases hx with (rfl | hx) | hx
        · exact Or.inr hknown
        · exact Or.inl hx
        · exact Or.inr hx
      refine ⟨fun x hx => hs.reached x (hx.imp_left fun hrest => ?_),
        fun base hbase => hmove (hs.direct base hbase),
        fun found hfound base hbase => hmove (hs.closed found hfound base hbase), hs.distinct⟩
      exact htaken.mem_iff.mpr (List.mem_cons_of_mem _ hrest)
  | @expand taken pending rest later seen htaken hfresh hlater =>
      have htakenPending : taken ∈ pending := htaken.mem_iff.mpr List.mem_cons_self
      have hreached : TransGen h.HasBase name taken := hs.reached taken (Or.inl htakenPending)
      have hmove : ∀ {x}, x ∈ pending ∨ x ∈ seen → x ∈ later ∨ x ∈ taken :: seen := by
        intro x hx
        rw [htaken.mem_iff, List.mem_cons] at hx
        rcases hx with (rfl | hx) | hx
        · exact Or.inr List.mem_cons_self
        · exact Or.inl (hlater.mem_iff.mpr (List.mem_append_right _ hx))
        · exact Or.inr (List.mem_cons_of_mem _ hx)
      refine ⟨fun x hx => ?_, fun base hbase => hmove (hs.direct base hbase),
        fun found hfound base hbase => ?_, List.nodup_cons.mpr ⟨hfresh, hs.distinct⟩⟩
      · rw [hlater.mem_iff, List.mem_append, List.mem_cons] at hx
        rcases hx with (hbase | hrest) | (rfl | hseen)
        · exact hreached.tail hbase
        · exact hs.reached x (Or.inl (htaken.mem_iff.mpr (List.mem_cons_of_mem _ hrest)))
        · exact hreached
        · exact hs.reached x (Or.inr hseen)
      · rcases List.mem_cons.mp hfound with rfl | hseen
        · exact Or.inl (hlater.mem_iff.mpr (List.mem_append_left _ hbase))
        · exact hmove (hs.closed found hseen base hbase)

theorem explores_run {s t : Search} (hs : Explores h name s) (hrun : ReflTransGen (Turn h) s t) :
    Explores h name t := by
  induction hrun with
  | refl => exact hs
  | tail _ hturn ih => exact explores_turn ih hturn

/-- A search that has ended has found what can be reached and nothing else. -/
theorem mem_seen_iff_of_pending_eq_nil {s : Search} (hs : Explores h name s)
    (hdone : s.pending = []) (found : String) :
    found ∈ s.seen ↔ TransGen h.HasBase name found := by
  constructor
  · intro hfound
    exact hs.reached found (Or.inr hfound)
  · intro hpath
    -- With nothing pending, what is found has the first bases and is closed under direct bases.
    induction hpath with
    | single hbase => simpa [hdone] using hs.direct _ hbase
    | tail _ hbase ih => simpa [hdone] using hs.closed _ ih _ hbase

/-- Collecting is a search that ends, given fuel for the turns that may be left. -/
theorem run_collect {fuel : Nat} {pending seen : List String}
    (hfuel : work h ⟨pending, seen⟩ ≤ fuel) :
    ReflTransGen (Turn h) ⟨pending, seen⟩ ⟨[], h.collect fuel pending seen⟩ := by
  induction fuel generalizing pending seen with
  | zero =>
      have hnil : pending = [] := by
        have hlength : pending.length = 0 := by
          simp only [work] at hfuel
          omega
        exact List.eq_nil_of_length_eq_zero hlength
      subst hnil
      exact ReflTransGen.refl
  | succ fuel ih =>
      cases pending with
      | nil => exact ReflTransGen.refl
      | cons taken rest =>
          by_cases hknown : taken ∈ seen
          · have hturn : Turn h ⟨taken :: rest, seen⟩ ⟨rest, seen⟩ :=
              .drop (List.Perm.refl _) hknown
            have hless := work_lt_of_turn hturn
            rw [collect, if_pos hknown]
            exact ReflTransGen.head hturn (ih (by omega))
          · have hturn : Turn h ⟨taken :: rest, seen⟩ ⟨h.bases taken ++ rest, taken :: seen⟩ :=
              .expand (List.Perm.refl _) hknown (List.Perm.refl _)
            have hless := work_lt_of_turn hturn
            rw [collect, if_neg hknown]
            exact ReflTransGen.head hturn (ih (by omega))

theorem run_supertypes (h : TypeHierarchy) (name : String) :
    ReflTransGen (Turn h) (start h name) ⟨[], h.supertypes name⟩ :=
  run_collect (Nat.le_of_eq (work_start h name))

end Search

/-! ## Subtypes -/

theorem explores_supertypes (h : TypeHierarchy) (name : String) :
    Search.Explores h name ⟨[], h.supertypes name⟩ :=
  Search.explores_run (Search.explores_start h name) (Search.run_supertypes h name)

theorem mem_supertypes_iff : base ∈ h.supertypes name ↔ TransGen h.HasBase name base :=
  Search.mem_seen_iff_of_pending_eq_nil (explores_supertypes h name) rfl base

theorem isSubtype_iff : h.isSubtype sub base = true ↔ sub = base ∨ TransGen h.HasBase sub base := by
  simp [isSubtype, mem_supertypes_iff]

/-- Subtypes are what any number of declared steps reach. -/
theorem isSubtype_iff_reflTransGen :
    h.isSubtype sub base = true ↔ ReflTransGen h.HasBase sub base := by
  rw [isSubtype_iff, reflTransGen_iff_eq_or_transGen, eq_comm]

theorem isSubtype_mono (hsteps : ∀ sub base, h.HasBase sub base → other.HasBase sub base)
    (hsub : h.isSubtype sub base = true) : other.isSubtype sub base = true := by
  rw [isSubtype_iff_reflTransGen] at hsub ⊢
  exact ReflTransGen.mono hsteps _ _ hsub

theorem isSubtype_congr (hsteps : ∀ sub base, h.HasBase sub base ↔ other.HasBase sub base)
    (sub base : String) : h.isSubtype sub base = other.isSubtype sub base :=
  Bool.eq_iff_iff.mpr ⟨isSubtype_mono fun sub base => (hsteps sub base).mp,
    isSubtype_mono fun sub base => (hsteps sub base).mpr⟩

/-! ## Declared steps -/

theorem hasBase_declare {bases : List String} :
    (h.declare name bases).HasBase sub base ↔
      h.HasBase sub base ∨ sub = name ∧ base ∈ bases := by
  unfold HasBase
  rw [bases_declare]
  by_cases hname : sub = name
  · simp [hname, mem_foldl_addBase]
  · simp [hname]

theorem hasBase_declareAll {declarations : List (String × List String)} :
    (h.declareAll declarations).HasBase sub base ↔
      h.HasBase sub base ∨ ∃ bases, (sub, bases) ∈ declarations ∧ base ∈ bases := by
  induction declarations generalizing h with
  | nil => simp [declareAll]
  | cons declaration rest ih =>
      have hcons : h.declareAll (declaration :: rest) =
          (h.declare declaration.1 declaration.2).declareAll rest := rfl
      rw [hcons, ih, hasBase_declare, or_assoc]
      refine or_congr_right ?_
      constructor
      · intro hsteps
        rcases hsteps with ⟨rfl, hbase⟩ | ⟨bases, hmem, hbase⟩
        · exact ⟨declaration.2, List.mem_cons_self, hbase⟩
        · exact ⟨bases, List.mem_cons_of_mem _ hmem, hbase⟩
      · intro hsteps
        obtain ⟨bases, hmem, hbase⟩ := hsteps
        rcases List.mem_cons.mp hmem with rfl | hrest
        · exact Or.inl ⟨rfl, hbase⟩
        · exact Or.inr ⟨bases, hrest, hbase⟩

theorem get?_declare (h : TypeHierarchy) (name other : String) (bases : List String) :
    (h.declare name bases).declared.get? other =
      if other = name then some (bases.foldl addBase (h.bases name))
      else h.declared.get? other := by
  simp [declare, Table.get?_insert]

theorem foldl_addBase_eq_of_subset {known added : List String} (h : added ⊆ known) :
    added.foldl addBase known = known := by
  induction added with
  | nil => rfl
  | cons first rest ih =>
      obtain ⟨hfirst, hrest⟩ := List.cons_subset.mp h
      rw [List.foldl_cons, addBase, if_pos hfirst]
      exact ih hrest

theorem get?_declare_of_subset {bases : List String} (hcontains : h.contains name = true)
    (hbases : bases ⊆ h.bases name) (other : String) :
    (h.declare name bases).declared.get? other = h.declared.get? other := by
  obtain ⟨known, hget⟩ := Option.isSome_iff_exists.mp hcontains
  have hknown : h.bases name = known := by rw [TypeHierarchy.bases, hget, Option.getD_some]
  rw [get?_declare, foldl_addBase_eq_of_subset hbases, hknown]
  by_cases hname : other = name
  · rw [if_pos hname, hname, hget]
  · rw [if_neg hname]

theorem hasBase_extend (hother : other.declared.Ordered) :
    (h.extend other).HasBase sub base ↔ h.HasBase sub base ∨ other.HasBase sub base := by
  have hdeclared : (∃ bases, (sub, bases) ∈ other.declared.entries ∧ base ∈ bases) ↔
      other.HasBase sub base := by
    simp only [Table.mem_entries_iff hother, HasBase, bases]
    cases other.declared.get? sub <;> simp
  rw [extend, hasBase_declareAll, hdeclared]

theorem ordered_declare (hordered : h.declared.Ordered) (name : String) (bases : List String) :
    (h.declare name bases).declared.Ordered :=
  Table.ordered_insert hordered _ _

theorem ordered_declareAll (hordered : h.declared.Ordered)
    (declarations : List (String × List String)) :
    (h.declareAll declarations).declared.Ordered := by
  induction declarations generalizing h with
  | nil => exact hordered
  | cons declaration rest ih => exact ih (ordered_declare hordered declaration.1 declaration.2)

end TypeHierarchy

/-! ## Hierarchies as they are built -/

inductive Declarations where
  | nothing
  | declare (earlier : Declarations) (name : String) (bases : List String)
  | extend (earlier other : Declarations)

namespace Declarations

def hierarchy : Declarations → TypeHierarchy
  | nothing => .empty
  | declare earlier name bases => earlier.hierarchy.declare name bases
  | extend earlier other => earlier.hierarchy.extend other.hierarchy

def Lists : Declarations → String → String → Prop
  | nothing, _, _ => False
  | declare earlier name bases, sub, base => earlier.Lists sub base ∨ sub = name ∧ base ∈ bases
  | extend earlier other, sub, base => earlier.Lists sub base ∨ other.Lists sub base

theorem ordered_hierarchy (d : Declarations) : d.hierarchy.declared.Ordered := by
  induction d with
  | nothing => exact Table.ordered_empty
  | declare earlier name bases ih => exact TypeHierarchy.ordered_declare ih name bases
  | extend earlier other ih _ => exact TypeHierarchy.ordered_declareAll ih _

theorem hasBase_hierarchy (d : Declarations) : d.hierarchy.HasBase = d.Lists := by
  funext sub base
  refine propext ?_
  induction d with
  | nothing =>
      have hnone : (TypeHierarchy.empty.declared.get? sub).getD [] = [] := rfl
      simp [hierarchy, TypeHierarchy.HasBase, TypeHierarchy.bases, hnone, Lists]
  | declare earlier name bases ih => rw [hierarchy, TypeHierarchy.hasBase_declare, ih, Lists]
  | extend earlier other ih ihOther =>
      rw [hierarchy, TypeHierarchy.hasBase_extend other.ordered_hierarchy, ih, ihOther, Lists]

/-- However a hierarchy was built, every search for supertypes ends, whichever pending name it
takes, and finds what one or more listed steps reach; subtypes are the types themselves and what
they reach, and later declarations take none away. -/
theorem isSubtype_exact (d : Declarations) :
    WellFounded (fun later earlier : TypeHierarchy.Search => earlier.Turn d.hierarchy later) ∧
    (∀ name last, ReflTransGen (TypeHierarchy.Search.Turn d.hierarchy)
        (TypeHierarchy.Search.start d.hierarchy name) last → last.pending = [] →
      ∀ base, base ∈ last.seen ↔ TransGen d.Lists name base) ∧
    (∀ name, ReflTransGen (TypeHierarchy.Search.Turn d.hierarchy)
        (TypeHierarchy.Search.start d.hierarchy name) ⟨[], d.hierarchy.supertypes name⟩) ∧
    (∀ name base, base ∈ d.hierarchy.supertypes name ↔ TransGen d.Lists name base) ∧
    (∀ name, (d.hierarchy.supertypes name).Nodup) ∧
    (∀ sub super, d.hierarchy.isSubtype sub super = true ↔
      sub = super ∨ TransGen d.Lists sub super) ∧
    (∀ name, d.hierarchy.isSubtype name name = true) ∧
    (∀ sub middle super, d.hierarchy.isSubtype sub middle = true →
      d.hierarchy.isSubtype middle super = true → d.hierarchy.isSubtype sub super = true) ∧
    (∀ sub super, d.hierarchy.isSubtype sub super = true →
      (∀ name bases, (d.hierarchy.declare name bases).isSubtype sub super = true) ∧
      ∀ other : Declarations,
        (d.hierarchy.extend other.hierarchy).isSubtype sub super = true) := by
  have hsteps := d.hasBase_hierarchy
  refine ⟨TypeHierarchy.Search.wellFounded_turn _, fun name last hrun hdone base => ?_,
    TypeHierarchy.Search.run_supertypes _, fun name base => ?_,
    fun name => (TypeHierarchy.explores_supertypes _ name).distinct, fun sub super => ?_,
    fun name => ?_, fun sub middle super hsub hsuper => ?_, fun sub super hsub => ⟨?_, ?_⟩⟩
  · have hexplores := TypeHierarchy.Search.explores_run
      (TypeHierarchy.Search.explores_start d.hierarchy name) hrun
    rw [TypeHierarchy.Search.mem_seen_iff_of_pending_eq_nil hexplores hdone, hsteps]
  · rw [TypeHierarchy.mem_supertypes_iff, hsteps]
  · rw [TypeHierarchy.isSubtype_iff, hsteps]
  · rw [TypeHierarchy.isSubtype_iff]
    exact Or.inl rfl
  · rw [TypeHierarchy.isSubtype_iff_reflTransGen] at hsub hsuper ⊢
    exact hsub.trans hsuper
  · intro name bases
    refine TypeHierarchy.isSubtype_mono (fun sub base hbase => ?_) hsub
    exact TypeHierarchy.hasBase_declare.mpr (Or.inl hbase)
  · intro other
    refine TypeHierarchy.isSubtype_mono (fun sub base hbase => ?_) hsub
    exact (TypeHierarchy.hasBase_extend other.ordered_hierarchy).mpr (Or.inl hbase)

/-- Two types that are bases of each other and one of them of itself, and a type that is below both
only by an extension. -/
def knot : Declarations :=
  .extend
    (.declare (.declare .nothing "A" ["B", "A"]) "B" ["A", "Operation"])
    (.declare (.declare .nothing "C" ["B", "Missing"]) "C" ["B"])

theorem isSubtype_exact_knot :
    knot.hierarchy.isSubtype "C" "A" = true ∧ knot.hierarchy.isSubtype "A" "Operation" = true ∧
      knot.hierarchy.isSubtype "C" "Operation" = true ∧
      "A" ∈ knot.hierarchy.supertypes "A" ∧
      (knot.hierarchy.declare "Operation" ["C"]).isSubtype "C" "A" = true := by
  obtain ⟨-, -, -, hsupertypes, -, -, -, htrans, hkept⟩ := isSubtype_exact knot
  have hlower : knot.hierarchy.isSubtype "C" "A" = true := by decide +kernel
  have hupper : knot.hierarchy.isSubtype "A" "Operation" = true := by decide +kernel
  have hself : knot.Lists "A" "A" := by simp [knot, Lists]
  exact ⟨hlower, hupper, htrans _ _ _ hlower hupper,
    (hsupertypes _ _).mpr (TransGen.single hself), (hkept _ _ hlower).1 _ _⟩

end Declarations

end MethodSynthesis
