import MethodSynthesis.Proofs.SubtypeClosure
import MethodSynthesis.Proofs.TableContents

/-!
# Merged hierarchies

Taking in a hierarchy declares each of its types once more. Every type is visited once, so the order
of the visits leaves no trace. The order in which a type was given its bases does, but only in the
list of them: what a hierarchy answers is told by the types and the steps that were declared, and a
merged hierarchy has those of both.
-/

namespace MethodSynthesis

open Relation

namespace TypeHierarchy

variable {h other : TypeHierarchy} {name : String} {bases : List String}
  {declarations visited : List (String × List String)}

/-! ## Hierarchies with the same answers -/

structure SameAnswers (h other : TypeHierarchy) : Prop where
  contains : ∀ name, h.contains name = other.contains name
  mem_supertypes : ∀ name base, base ∈ h.supertypes name ↔ base ∈ other.supertypes name
  isSubtype : ∀ sub super, h.isSubtype sub super = other.isSubtype sub super

/-- The declared types and the declared steps settle every answer. -/
theorem sameAnswers_of_steps (hnames : ∀ name, h.contains name = other.contains name)
    (hsteps : h.HasBase = other.HasBase) : h.SameAnswers other where
  contains := hnames
  mem_supertypes name base := by rw [mem_supertypes_iff, mem_supertypes_iff, hsteps]
  isSubtype := isSubtype_congr fun sub base => by rw [hsteps]

/-! ## Lists of bases -/

theorem nodup_addBase (hnodup : bases.Nodup) (base : String) : (addBase bases base).Nodup := by
  unfold addBase
  by_cases hmem : base ∈ bases
  · rwa [if_pos hmem]
  · rw [if_neg hmem, ← List.concat_eq_append]
    exact hnodup.concat hmem

theorem nodup_bases_declare (hnodup : ∀ name, (h.bases name).Nodup) (declared name : String)
    (bases : List String) : ((h.declare declared bases).bases name).Nodup := by
  have hadded : ∀ known : List String, known.Nodup → (bases.foldl addBase known).Nodup := by
    induction bases with
    | nil => exact fun known hknown => hknown
    | cons first rest ih => exact fun known hknown => ih _ (nodup_addBase hknown first)
  rw [bases_declare]
  by_cases hname : name = declared
  · rw [if_pos hname]
    exact hadded _ (hnodup declared)
  · rw [if_neg hname]
    exact hnodup name

theorem nodup_bases_declareAll (hnodup : ∀ name, (h.bases name).Nodup)
    (declarations : List (String × List String)) (name : String) :
    ((h.declareAll declarations).bases name).Nodup := by
  induction declarations generalizing h with
  | nil => exact hnodup name
  | cons first rest ih => exact ih fun name => nodup_bases_declare hnodup first.1 name first.2

/-! ## Visits in any order -/

theorem eq_of_get?_eq (hordered : h.declared.Ordered) (hother : other.declared.Ordered)
    (hget : ∀ name, h.declared.get? name = other.declared.get? name) : h = other := by
  cases h
  cases other
  exact congrArg mk (Table.eq_of_get?_eq hordered hother hget)

theorem declare_comm (hordered : h.declared.Ordered) {first second : String}
    (hne : first ≠ second) (firstBases secondBases : List String) :
    (h.declare first firstBases).declare second secondBases =
      (h.declare second secondBases).declare first firstBases := by
  apply eq_of_get?_eq (ordered_declare (ordered_declare hordered _ _) _ _)
    (ordered_declare (ordered_declare hordered _ _) _ _)
  intro name
  simp only [get?_declare, bases_declare, if_neg hne, if_neg hne.symm]
  by_cases hfirst : name = first
  · rw [if_neg (hfirst ▸ hne), if_pos hfirst, if_pos hfirst]
  · rw [if_neg hfirst, if_neg hfirst]

/-- Where each type is visited once, every order of the visits builds the same hierarchy. -/
theorem declareAll_perm (hordered : h.declared.Ordered) (hperm : visited.Perm declarations)
    (honce : (visited.map Prod.fst).Nodup) :
    h.declareAll visited = h.declareAll declarations := by
  induction hperm generalizing h with
  | nil => rfl
  | cons first _ ih =>
      rw [List.map_cons, List.nodup_cons] at honce
      exact ih (ordered_declare hordered first.1 first.2) honce.2
  | swap first second rest =>
      rw [List.map_cons, List.map_cons, List.nodup_cons] at honce
      have hne : second.1 ≠ first.1 := List.ne_of_not_mem_cons honce.1
      exact congrArg (declareAll · rest) (declare_comm hordered hne second.2 first.2)
  | trans hfirst _ ihFirst ihSecond =>
      have hsame := (hfirst.map Prod.fst).nodup_iff.mp honce
      exact (ihFirst hordered honce).trans (ihSecond hordered hsame)

/-- The order in which the types of a hierarchy are visited leaves no trace in what takes it in. -/
theorem declareAll_eq_extend (hordered : h.declared.Ordered) (hother : other.declared.Ordered)
    (hvisit : visited.Perm other.declared.entries) : h.declareAll visited = h.extend other :=
  declareAll_perm hordered hvisit
    ((hvisit.map Prod.fst).nodup_iff.mpr (Table.nodup_keys hother))

/-! ## Extensions -/

theorem contains_declareAll : (h.declareAll declarations).contains name = true ↔
    h.contains name = true ∨ name ∈ declarations.map Prod.fst := by
  induction declarations generalizing h with
  | nil => simp [declareAll]
  | cons first rest ih =>
      have hcons : h.declareAll (first :: rest) = (h.declare first.1 first.2).declareAll rest := rfl
      rw [hcons, ih, contains_declare, List.map_cons, List.mem_cons, Bool.or_eq_true,
        decide_eq_true_eq, or_comm (a := name = first.1), or_assoc]

theorem contains_extend (hother : other.declared.Ordered) (name : String) :
    (h.extend other).contains name = (h.contains name || other.contains name) := by
  have hkeys : name ∈ other.declared.entries.map Prod.fst ↔ other.contains name = true := by
    rw [contains, Table.contains, Option.isSome_iff_exists]
    exact Table.mem_keys_iff hother name
  rw [Bool.eq_iff_iff, extend, contains_declareAll, hkeys, Bool.or_eq_true]

theorem declareAll_eq_self (hordered : h.declared.Ordered)
    (hknown : ∀ declaration ∈ declarations, h.contains declaration.1 = true ∧
      declaration.2 ⊆ h.bases declaration.1) : h.declareAll declarations = h := by
  induction declarations with
  | nil => rfl
  | cons first rest ih =>
      obtain ⟨⟨hcontains, hbases⟩, hrest⟩ := List.forall_mem_cons.mp hknown
      have hsame : h.declare first.1 first.2 = h :=
        eq_of_get?_eq (ordered_declare hordered _ _) hordered
          (get?_declare_of_subset hcontains hbases)
      calc h.declareAll (first :: rest)
          = (h.declare first.1 first.2).declareAll rest := rfl
        _ = h := by rw [hsame, ih hrest]

theorem extend_extend_self (hordered : h.declared.Ordered) (hother : other.declared.Ordered) :
    (h.extend other).extend other = h.extend other := by
  apply declareAll_eq_self (ordered_declareAll hordered _)
  intro ⟨name, bases⟩ hmem
  have hget : other.declared.get? name = some bases := (Table.mem_entries_iff hother _ _).mp hmem
  constructor
  · show (h.extend other).contains name = true
    have hdeclared : other.contains name = true := by
      rw [contains, Table.contains, hget, Option.isSome_some]
    rw [contains_extend hother, hdeclared, Bool.or_true]
  · intro base hbase
    apply (hasBase_extend hother).mpr (Or.inr _)
    rwa [HasBase, TypeHierarchy.bases, hget, Option.getD_some]

end TypeHierarchy

namespace Declarations

open TypeHierarchy (SameAnswers)

variable {d e : Declarations} {built : TypeHierarchy}

/-! ## Built hierarchies -/

/-- What declarations may build when the types of a hierarchy that is taken in are visited in any
order. -/
inductive Builds : Declarations → TypeHierarchy → Prop
  | nothing : Builds .nothing .empty
  | declare {d : Declarations} {built : TypeHierarchy} (name : String) (bases : List String)
      (h : Builds d built) : Builds (.declare d name bases) (built.declare name bases)
  | extend {d e : Declarations} {built other : TypeHierarchy}
      {visited : List (String × List String)} (h : Builds d built) (hother : Builds e other)
      (hvisit : visited.Perm other.declared.entries) :
      Builds (.extend d e) (built.declareAll visited)

theorem builds_hierarchy (d : Declarations) : d.Builds d.hierarchy := by
  induction d with
  | nothing => exact .nothing
  | declare earlier name bases ih => exact .declare name bases ih
  | extend earlier other ih ihOther => exact .extend ih ihOther (List.Perm.refl _)

theorem eq_hierarchy_of_builds (h : d.Builds built) : built = d.hierarchy := by
  induction h with
  | nothing => rfl
  | declare name bases _ ih => rw [ih, hierarchy]
  | @extend d e _ _ _ _ _ hvisit ih ihOther =>
      rw [ihOther] at hvisit
      rw [ih, hierarchy]
      exact TypeHierarchy.declareAll_eq_extend d.ordered_hierarchy e.ordered_hierarchy hvisit

/-- The declarations of types one after the other, those of a hierarchy that is taken in where it is
taken in. -/
def calls : Declarations → List (String × List String)
  | nothing => []
  | declare earlier name bases => earlier.calls ++ [(name, bases)]
  | extend earlier other => earlier.calls ++ other.calls

theorem contains_hierarchy (d : Declarations) (name : String) :
    d.hierarchy.contains name = true ↔ name ∈ d.calls.map Prod.fst := by
  induction d with
  | nothing => simp [hierarchy, calls, TypeHierarchy.empty, TypeHierarchy.contains,
      Table.contains, Table.get?, Table.lookup]
  | declare earlier declared bases ih =>
      simp only [hierarchy, calls, TypeHierarchy.contains_declare, Bool.or_eq_true,
        decide_eq_true_eq, ih, List.map_append, List.map_cons, List.map_nil, List.mem_append,
        List.mem_singleton, or_comm]
  | extend earlier other ih ihOther =>
      rw [hierarchy, calls, TypeHierarchy.contains_extend other.ordered_hierarchy,
        Bool.or_eq_true, ih, ihOther, List.map_append, List.mem_append]

theorem lists_iff (d : Declarations) (sub base : String) :
    d.Lists sub base ↔ ∃ bases, (sub, bases) ∈ d.calls ∧ base ∈ bases := by
  induction d with
  | nothing => simp [Lists, calls]
  | declare earlier name bases ih =>
      simp only [Lists, calls, ih, List.mem_append, List.mem_singleton, Prod.mk.injEq, or_and_right,
        exists_or]
      apply or_congr_right
      constructor
      · intro h
        exact ⟨bases, ⟨h.1, rfl⟩, h.2⟩
      · rintro ⟨listed, ⟨hsub, rfl⟩, hbase⟩
        exact ⟨hsub, hbase⟩
  | extend earlier other ih ihOther =>
      simp only [Lists, calls, ih, ihOther, List.mem_append, or_and_right, exists_or]

/-- In whichever order the same types are declared, and whether one by one or by hierarchies that
are taken in, the answers are the same. -/
theorem sameAnswers_of_calls_perm (h : d.calls.Perm e.calls) :
    d.hierarchy.SameAnswers e.hierarchy := by
  apply TypeHierarchy.sameAnswers_of_steps
  · intro name
    rw [Bool.eq_iff_iff, contains_hierarchy, contains_hierarchy, (h.map Prod.fst).mem_iff]
  · rw [hasBase_hierarchy, hasBase_hierarchy]
    funext sub base
    simp only [lists_iff, h.mem_iff]

theorem nodup_bases_hierarchy (d : Declarations) (name : String) :
    (d.hierarchy.bases name).Nodup := by
  induction d generalizing name with
  | nothing => exact List.nodup_nil
  | declare earlier declared bases ih => exact TypeHierarchy.nodup_bases_declare ih _ _ _
  | extend earlier other ih _ => exact TypeHierarchy.nodup_bases_declareAll ih _ name

/-- However two hierarchies were built, taking one into the other builds one hierarchy, whichever
order its types are visited in: it has the types and the steps of both, and each base of a type
once. The answers do not tell which of them was taken into which, nor how three were put together,
nor the order of the declarations; and to take one in again changes nothing. -/
theorem extend_union_exact (d e : Declarations) :
    (∀ built, (d.extend e).Builds built ↔ built = d.hierarchy.extend e.hierarchy) ∧
    (∀ name, (d.hierarchy.extend e.hierarchy).contains name =
      (d.hierarchy.contains name || e.hierarchy.contains name)) ∧
    (∀ sub super, (d.hierarchy.extend e.hierarchy).isSubtype sub super = true ↔
      ReflTransGen (fun sub base => d.Lists sub base ∨ e.Lists sub base) sub super) ∧
    (d.hierarchy.extend e.hierarchy).SameAnswers (e.hierarchy.extend d.hierarchy) ∧
    (d.hierarchy.extend e.hierarchy).extend e.hierarchy = d.hierarchy.extend e.hierarchy ∧
    (∀ f : Declarations, ((d.hierarchy.extend e.hierarchy).extend f.hierarchy).SameAnswers
      (d.hierarchy.extend (e.hierarchy.extend f.hierarchy))) ∧
    (∀ name, (d.hierarchy.bases name).Nodup ∧
      ((d.hierarchy.extend e.hierarchy).bases name).Nodup) ∧
    (∀ d' e' : Declarations, d'.calls.Perm d.calls → e'.calls.Perm e.calls →
      (d'.hierarchy.extend e'.hierarchy).SameAnswers (d.hierarchy.extend e.hierarchy)) := by
  refine ⟨fun built => ⟨eq_hierarchy_of_builds, fun h => h ▸ builds_hierarchy (d.extend e)⟩,
    TypeHierarchy.contains_extend e.ordered_hierarchy, fun sub super => ?_,
    sameAnswers_of_calls_perm (d := d.extend e) (e := e.extend d) List.perm_append_comm,
    TypeHierarchy.extend_extend_self d.ordered_hierarchy e.ordered_hierarchy, fun f => ?_,
    fun name => ⟨d.nodup_bases_hierarchy name, (d.extend e).nodup_bases_hierarchy name⟩,
    fun d' e' hd he => ?_⟩
  · have hsteps : (d.hierarchy.extend e.hierarchy).HasBase =
        fun sub base => d.Lists sub base ∨ e.Lists sub base := hasBase_hierarchy (d.extend e)
    rw [TypeHierarchy.isSubtype_iff_reflTransGen, hsteps]
  · apply sameAnswers_of_calls_perm (d := (d.extend e).extend f) (e := d.extend (e.extend f))
    rw [calls, calls, calls, calls, List.append_assoc]
  · exact sameAnswers_of_calls_perm (d := d'.extend e') (e := d.extend e) (hd.append he)

/-- Two types below each other, declared in one order and in the other. -/
def pair : Declarations := .declare (.declare .nothing "A" ["B"]) "B" ["A", "C"]

def pairReversed : Declarations := .declare (.declare .nothing "B" ["A", "C"]) "A" ["B"]

def lone : Declarations := .declare .nothing "A" ["D", "B"]

/-- The lists of bases differ with the direction of the merge, the answers do not. -/
theorem extend_union_exact_pair :
    (pair.hierarchy.extend lone.hierarchy).bases "A" = ["B", "D"] ∧
      (lone.hierarchy.extend pair.hierarchy).bases "A" = ["D", "B"] ∧
      (pair.hierarchy.extend lone.hierarchy).SameAnswers
        (lone.hierarchy.extend pair.hierarchy) ∧
      pairReversed.calls.Perm pair.calls ∧
      (pairReversed.hierarchy.extend lone.hierarchy).SameAnswers
        (pair.hierarchy.extend lone.hierarchy) ∧
      (pair.hierarchy.extend lone.hierarchy).isSubtype "B" "D" = true := by
  obtain ⟨-, -, hpaths, hcomm, -, -, -, horder⟩ := extend_union_exact pair lone
  have hswapped : pairReversed.calls.Perm pair.calls := List.Perm.swap _ _ _
  have hlower : pair.Lists "B" "A" := by simp [pair, Lists]
  have hupper : lone.Lists "A" "D" := by simp [lone, Lists]
  exact ⟨by decide +kernel, by decide +kernel, hcomm, hswapped,
    horder _ _ hswapped (List.Perm.refl _),
    (hpaths _ _).mpr (.head (Or.inl hlower) (.single (Or.inr hupper)))⟩

end Declarations

end MethodSynthesis
