import Mathlib.Algebra.Order.BigOperators.Group.List
import Mathlib.Algebra.Order.Group.Nat
import Mathlib.Data.List.Perm.Subperm
import MethodSynthesis.Proofs.SubtypeClosure

/-!
# Types above themselves

A type is among its own supertypes when declared steps lead from it back to it. No type is when the
types can be ranked so that every step leads to a lower rank, and the number of its supertypes ranks
a type. One more declaration closes a cycle when one of the new bases is a subtype of the declared
type.
-/

namespace MethodSynthesis

open Relation

namespace TypeHierarchy

variable {h : TypeHierarchy} {name base sub : String} {bases : List String}

/-- No type is above itself. -/
def IsAcyclic (h : TypeHierarchy) : Prop := ∀ name, name ∉ h.supertypes name

/-- Every declared step leads to a lower rank. -/
def IsRankedBy (h : TypeHierarchy) (rank : String → Nat) : Prop :=
  ∀ sub base, h.HasBase sub base → rank base < rank sub

theorem self_mem_supertypes_iff :
    name ∈ h.supertypes name ↔ ∃ base, h.HasBase name base ∧ h.isSubtype base name = true := by
  rw [mem_supertypes_iff, TransGen.head'_iff]
  simp only [isSubtype_iff_reflTransGen]

/-! ## Ranks -/

theorem IsRankedBy.lt_of_transGen {rank : String → Nat} (hrank : h.IsRankedBy rank)
    (hpath : TransGen h.HasBase sub base) : rank base < rank sub := by
  induction hpath with
  | single hstep => exact hrank _ _ hstep
  | tail _ hstep ih => exact Nat.lt_trans (hrank _ _ hstep) ih

theorem IsRankedBy.isAcyclic {rank : String → Nat} (hrank : h.IsRankedBy rank) : h.IsAcyclic := by
  intro name hself
  exact Nat.lt_irrefl _ (hrank.lt_of_transGen (mem_supertypes_iff.mp hself))

/-- Without cycles a base has fewer supertypes: all that it has are above the type below it, and so
is the base itself. -/
theorem IsAcyclic.isRankedBy_length (hacyclic : h.IsAcyclic) :
    h.IsRankedBy fun name => (h.supertypes name).length := by
  intro sub base hstep
  have habove : base :: h.supertypes base ⊆ h.supertypes sub := by
    apply List.cons_subset.mpr
    constructor
    · exact mem_supertypes_iff.mpr (TransGen.single hstep)
    · intro upper hupper
      exact mem_supertypes_iff.mpr (TransGen.head hstep (mem_supertypes_iff.mp hupper))
  have hdistinct : (base :: h.supertypes base).Nodup :=
    List.nodup_cons.mpr ⟨hacyclic base, (explores_supertypes h base).distinct⟩
  exact (List.subperm_of_subset hdistinct habove).length_le

theorem isAcyclic_iff_exists_rank : h.IsAcyclic ↔ ∃ rank, h.IsRankedBy rank :=
  ⟨fun hacyclic => ⟨_, hacyclic.isRankedBy_length⟩, fun ⟨_, hrank⟩ => hrank.isAcyclic⟩

/-! ## One more declaration -/

/-- The types below the declared one are raised above all the new bases. -/
theorem IsRankedBy.exists_declare {rank : String → Nat} (hrank : h.IsRankedBy rank)
    (hbases : ∀ base ∈ bases, h.isSubtype base name = false) :
    ∃ raised, (h.declare name bases).IsRankedBy raised := by
  -- The lift is greater than the rank of every new base.
  let lift := 1 + (bases.map rank).sum
  refine ⟨fun type => if h.isSubtype type name = true then rank type + lift else rank type, ?_⟩
  intro sub base hstep
  rcases hasBase_declare.mp hstep with hold | ⟨rfl, hnew⟩
  · have hlower : rank base < rank sub := hrank _ _ hold
    by_cases hbelow : h.isSubtype base name = true
    · have hsub : h.isSubtype sub name = true := by
        rw [isSubtype_iff_reflTransGen] at hbelow ⊢
        exact ReflTransGen.head hold hbelow
      simp only [if_pos hbelow, if_pos hsub]
      omega
    · simp only [if_neg hbelow]
      split <;> omega
  · have hself : h.isSubtype sub sub = true := isSubtype_iff.mpr (Or.inl rfl)
    have hle : rank base ≤ (bases.map rank).sum := List.le_sum_of_mem (List.mem_map_of_mem hnew)
    simp only [hbases base hnew, if_pos hself, Bool.false_eq_true, if_false]
    omega

theorem isAcyclic_declare_iff : (h.declare name bases).IsAcyclic ↔
    h.IsAcyclic ∧ ∀ base ∈ bases, h.isSubtype base name = false := by
  have hkept : ∀ sub base, h.HasBase sub base → (h.declare name bases).HasBase sub base :=
    fun sub base hstep => hasBase_declare.mpr (Or.inl hstep)
  constructor
  · intro hacyclic
    constructor
    · obtain ⟨rank, hrank⟩ := isAcyclic_iff_exists_rank.mp hacyclic
      have hold : h.IsRankedBy rank := fun sub base hstep => hrank sub base (hkept sub base hstep)
      exact hold.isAcyclic
    · intro base hbase
      apply Bool.eq_false_iff.mpr
      intro hsub
      apply hacyclic name
      exact self_mem_supertypes_iff.mpr
        ⟨base, hasBase_declare.mpr (Or.inr ⟨rfl, hbase⟩), isSubtype_mono hkept hsub⟩
  · intro hrest
    obtain ⟨rank, hrank⟩ := isAcyclic_iff_exists_rank.mp hrest.1
    exact isAcyclic_iff_exists_rank.mpr (hrank.exists_declare hrest.2)

end TypeHierarchy

namespace Declarations

/-- A type is among its own supertypes exactly when listed steps lead from it back to it. No type of
a hierarchy is exactly when the types can be ranked along the listed steps, and it stays so exactly
as long as no type is declared with one of its subtypes as a base. -/
theorem self_mem_supertypes_exact (d : Declarations) :
    (∀ name, name ∈ d.hierarchy.supertypes name ↔ TransGen d.Lists name name) ∧
    (∀ name, name ∈ d.hierarchy.supertypes name ↔
      ∃ base, d.Lists name base ∧ d.hierarchy.isSubtype base name = true) ∧
    (d.hierarchy.IsAcyclic ↔
      ∃ rank : String → Nat, ∀ sub base, d.Lists sub base → rank base < rank sub) ∧
    (∀ name bases, (d.declare name bases).hierarchy.IsAcyclic ↔
      d.hierarchy.IsAcyclic ∧ ∀ base ∈ bases, d.hierarchy.isSubtype base name = false) := by
  have hsteps := d.hasBase_hierarchy
  refine ⟨fun name => ?_, fun name => ?_, ?_, fun name bases => ?_⟩
  · rw [TypeHierarchy.mem_supertypes_iff, hsteps]
  · rw [TypeHierarchy.self_mem_supertypes_iff, hsteps]
  · rw [TypeHierarchy.isAcyclic_iff_exists_rank]
    simp only [TypeHierarchy.IsRankedBy, hsteps]
  · exact TypeHierarchy.isAcyclic_declare_iff

/-- A type with two bases, of which one is below the other. -/
def shortcut : Declarations :=
  .declare (.declare .nothing "Leaf" ["Root", "Inner"]) "Inner" ["Root"]

/-- Of the types that are above it, none may take the lowest one as a base. -/
theorem self_mem_supertypes_exact_shortcut :
    shortcut.hierarchy.IsAcyclic ∧ "Inner" ∉ shortcut.hierarchy.supertypes "Inner" ∧
      ¬(shortcut.declare "Root" ["Leaf"]).hierarchy.IsAcyclic := by
  obtain ⟨-, -, hranked, hdeclare⟩ := self_mem_supertypes_exact shortcut
  have hacyclic : shortcut.hierarchy.IsAcyclic := by
    refine hranked.mpr
      ⟨fun name => if name = "Leaf" then 2 else if name = "Inner" then 1 else 0, ?_⟩
    intro sub base hstep
    simp only [shortcut, Lists, List.mem_cons, List.not_mem_nil, or_false, false_or] at hstep
    rcases hstep with ⟨rfl, rfl | rfl⟩ | ⟨rfl, rfl⟩ <;> decide
  refine ⟨hacyclic, hacyclic "Inner", fun hclosed => ?_⟩
  have hbelow := ((hdeclare "Root" ["Leaf"]).mp hclosed).2 "Leaf" List.mem_cons_self
  revert hbelow
  decide +kernel

def ring : Declarations := .declare (.declare .nothing "A" ["B"]) "B" ["A"]

/-- On a cycle a type is reported as one of its supertypes. -/
theorem self_mem_supertypes_ring :
    "A" ∈ ring.hierarchy.supertypes "A" ∧ "B" ∈ ring.hierarchy.supertypes "B" := by
  decide +kernel

end Declarations

end MethodSynthesis
