import MethodSynthesis.Operation.Registry
import MethodSynthesis.Proofs.SubtypeClosure
import MethodSynthesis.Proofs.TableContents

/-!
# What a bulk import registers

An import looks for the base type along the steps that the registry knows and those that the members
declare. Which members it registers depends on the steps alone, and so not on the order of the scan.
-/

namespace MethodSynthesis

open Relation

/-! ## Members -/

namespace NamespaceMember

/-- A step to a direct base that the member declares, if it is a type. -/
def Declares (member : NamespaceMember) (sub base : String) : Prop :=
  ∃ info, member.value = .type info ∧ info.name = sub ∧ base ∈ info.bases

/-- The member is a type whose name is the base type or reaches it along the steps. -/
def IsOperation (steps : String → String → Prop) (baseType : String) (member : NamespaceMember) :
    Prop :=
  ∃ info, member.value = .type info ∧ (info.name = baseType ∨ TransGen steps info.name baseType)

end NamespaceMember

def MemberValue.skipReason : MemberValue → SkipReason
  | .type _ => .notAnOperation
  | .value _ => .notAType
  | .nested _ => .nestedNamespace

/-! ## Classification -/

namespace TypeHierarchy

variable {h : TypeHierarchy} {baseType sub base : String} {member : NamespaceMember}
  {members : List NamespaceMember}

theorem hasBase_declareType {info : TypeInfo} :
    (h.declareType info).HasBase sub base ↔
      h.HasBase sub base ∨ info.name = sub ∧ base ∈ info.bases := by
  rw [declareType, hasBase_declare, eq_comm (a := sub)]

theorem hasBase_foldl_declareType {infos : List TypeInfo} :
    (infos.foldl declareType h).HasBase sub base ↔
      h.HasBase sub base ∨ ∃ info ∈ infos, info.name = sub ∧ base ∈ info.bases := by
  induction infos generalizing h with
  | nil => simp
  | cons info rest ih => simp [ih, hasBase_declareType, or_assoc]

theorem type?_eq_some_iff {value : MemberValue} {info : TypeInfo} :
    value.type? = some info ↔ value = .type info := by
  cases value <;> simp [MemberValue.type?]

theorem hasBase_declareMembers :
    (h.declareMembers members).HasBase sub base ↔
      h.HasBase sub base ∨ ∃ member ∈ members, member.Declares sub base := by
  rw [declareMembers, hasBase_foldl_declareType]
  refine or_congr_right ?_
  simp only [List.mem_filterMap, type?_eq_some_iff, NamespaceMember.Declares]
  constructor
  · intro ⟨info, ⟨member, hmember, htype⟩, hstep⟩
    exact ⟨member, hmember, info, htype, hstep⟩
  · intro ⟨member, hmember, info, htype, hstep⟩
    exact ⟨info, ⟨member, hmember, htype⟩, hstep⟩

theorem classify_eq_ok_iff {value : MemberValue} {info : TypeInfo} :
    h.classify baseType value = .ok info ↔
      value = .type info ∧ h.isSubtype info.name baseType = true := by
  cases value with
  | type other =>
      simp only [classify, MemberValue.type.injEq]
      split
      · rename_i hsub
        simp only [Except.ok.injEq]
        constructor
        · intro heq
          exact ⟨heq, heq ▸ hsub⟩
        · exact And.left
      · rename_i hsub
        simp only [reduceCtorEq, false_iff, not_and]
        intro heq
        rw [← heq]
        exact hsub
  | value v => simp [classify]
  | nested fullName => simp [classify]

theorem reason_of_classify {value : MemberValue} {reason : SkipReason}
    (herror : h.classify baseType value = .error reason) : reason = value.skipReason := by
  cases value with
  | type info =>
      simp only [classify] at herror
      split at herror
      · cases herror
      · cases herror
        rfl
  | value v =>
      cases herror
      rfl
  | nested fullName =>
      cases herror
      rfl

theorem classify_congr {other : TypeHierarchy} (hsteps : other.HasBase = h.HasBase)
    (value : MemberValue) : other.classify baseType value = h.classify baseType value := by
  cases value with
  | type info =>
      have hsub := isSubtype_congr (fun sub base => iff_of_eq (congrFun₂ hsteps sub base))
        info.name baseType
      simp only [classify, hsub]
  | value v => rfl
  | nested fullName => rfl

theorem isOperation_iff_classify (h : TypeHierarchy) (baseType : String)
    (member : NamespaceMember) :
    member.IsOperation h.HasBase baseType ↔
      ∃ info, h.classify baseType member.value = .ok info := by
  simp only [NamespaceMember.IsOperation, classify_eq_ok_iff, isSubtype_iff]

end TypeHierarchy

/-! ## Accepted and skipped members -/

section Scan

variable {h : TypeHierarchy} {baseType : String} {members others : List NamespaceMember}
  {steps : String → String → Prop}

theorem mem_acceptedMembers_iff {name : String} {info : TypeInfo} :
    (name, info) ∈ acceptedMembers h baseType members ↔
      ⟨name, .type info⟩ ∈ members ∧ h.isSubtype info.name baseType = true := by
  simp only [acceptedMembers, List.mem_filterMap]
  constructor
  · intro ⟨member, hmember, haccepted⟩
    obtain ⟨memberName, value⟩ := member
    split at haccepted
    · rename_i hclass
      obtain ⟨hvalue, hsub⟩ := TypeHierarchy.classify_eq_ok_iff.mp hclass
      cases haccepted
      cases hvalue
      exact ⟨hmember, hsub⟩
    · cases haccepted
  · intro ⟨hmember, hsub⟩
    have hclass := TypeHierarchy.classify_eq_ok_iff.mpr ⟨rfl, hsub⟩
    exact ⟨_, hmember, by simp only [hclass]⟩

theorem acceptedMembers_of_split {before later : List NamespaceMember} {name : String}
    {info : TypeInfo} (hsub : h.isSubtype info.name baseType = true) :
    acceptedMembers h baseType (before ++ ⟨name, .type info⟩ :: later) =
      acceptedMembers h baseType before ++ (name, info) :: acceptedMembers h baseType later := by
  have hclass : h.classify baseType (.type info) = .ok info :=
    TypeHierarchy.classify_eq_ok_iff.mpr ⟨rfl, hsub⟩
  simp [acceptedMembers, hclass]

variable (baseType)
variable [DecidablePred (NamespaceMember.IsOperation steps baseType)]

theorem map_fst_acceptedMembers (hsteps : h.HasBase = steps) (members : List NamespaceMember) :
    (acceptedMembers h baseType members).map Prod.fst =
      (members.filter fun member => member.IsOperation steps baseType).map
        NamespaceMember.name := by
  subst hsteps
  induction members with
  | nil => rfl
  | cons member rest ih =>
      have hoperation := TypeHierarchy.isOperation_iff_classify h baseType member
      cases hclass : h.classify baseType member.value with
      | ok info =>
          have hyes : member.IsOperation h.HasBase baseType := hoperation.mpr ⟨info, hclass⟩
          simpa [acceptedMembers, hclass, hyes] using ih
      | error reason =>
          have hno : ¬ member.IsOperation h.HasBase baseType := by simp [hoperation, hclass]
          simpa [acceptedMembers, hclass, hno] using ih

theorem skippedMembers_eq_map (hsteps : h.HasBase = steps) (members : List NamespaceMember) :
    skippedMembers h baseType members =
      (members.filter fun member => ¬ member.IsOperation steps baseType).map fun member =>
        (member.name, member.value.skipReason) := by
  subst hsteps
  induction members with
  | nil => rfl
  | cons member rest ih =>
      have hoperation := TypeHierarchy.isOperation_iff_classify h baseType member
      cases hclass : h.classify baseType member.value with
      | ok info =>
          have hyes : member.IsOperation h.HasBase baseType := hoperation.mpr ⟨info, hclass⟩
          simpa [skippedMembers, hclass, hyes] using ih
      | error reason =>
          have hno : ¬ member.IsOperation h.HasBase baseType := by simp [hoperation, hclass]
          have hreason := TypeHierarchy.reason_of_classify hclass
          simpa [skippedMembers, hclass, hno, hreason] using ih

end Scan

/-! ## Registrations -/

namespace OperationRegistry

variable {r : OperationRegistry} {namespaceName baseType : String}
  {members others : List NamespaceMember} {key : OperationKey}

/-- The steps along which an import looks for the base type: those that the registry knows and
those that the members declare. -/
def ImportSteps (r : OperationRegistry) (members : List NamespaceMember) (sub base : String) :
    Prop :=
  r.types.HasBase sub base ∨ ∃ member ∈ members, member.Declares sub base

theorem hasBase_declareMembers_eq (r : OperationRegistry) (members : List NamespaceMember) :
    (r.types.declareMembers members).HasBase = r.ImportSteps members := by
  funext sub base
  exact propext TypeHierarchy.hasBase_declareMembers

theorem importSteps_perm (r : OperationRegistry) (hperm : others.Perm members) :
    r.ImportSteps others = r.ImportSteps members := by
  funext sub base
  simp only [ImportSteps, hperm.mem_iff]

/-- An import decides what is an operation by looking for supertypes. -/
instance : DecidablePred (NamespaceMember.IsOperation (r.ImportSteps members) baseType) :=
  fun member =>
    decidable_of_iff
      (((r.types.declareMembers members).classify baseType member.value).isOk = true) (by
        rw [← hasBase_declareMembers_eq, TypeHierarchy.isOperation_iff_classify]
        cases (r.types.declareMembers members).classify baseType member.value <;>
          simp [Except.isOk, Except.toBool])

/-- What the accepted members bind, in the order in which they are registered. -/
def registrations (namespaceName : String) (accepted : List (String × TypeInfo)) :
    List (OperationKey × Option OperationFactory) :=
  accepted.map fun (name, info) => (⟨namespaceName, name⟩, info.factory)

def registerAll (r : OperationRegistry) (namespaceName : String)
    (accepted : List (String × TypeInfo)) : OperationRegistry :=
  accepted.foldl (fun r (name, info) => r.registerType ⟨namespaceName, name⟩ info) r

theorem entries_registerAll (r : OperationRegistry) (accepted : List (String × TypeInfo)) :
    (r.registerAll namespaceName accepted).entries =
      r.entries.insertAll (registrations namespaceName accepted) := by
  induction accepted generalizing r with
  | nil => rfl
  | cons first rest ih => exact ih (r.registerType ⟨namespaceName, first.1⟩ first.2)

theorem types_registerAll (r : OperationRegistry) (accepted : List (String × TypeInfo)) :
    (r.registerAll namespaceName accepted).types =
      (accepted.map Prod.snd).foldl TypeHierarchy.declareType r.types := by
  induction accepted generalizing r with
  | nil => rfl
  | cons first rest ih => exact ih (r.registerType ⟨namespaceName, first.1⟩ first.2)

theorem get?_registerAll (r : OperationRegistry) (accepted : List (String × TypeInfo)) :
    (r.registerAll namespaceName accepted).entries.get? key =
      (lastValue? (registrations namespaceName accepted) key).or (r.entries.get? key) := by
  rw [entries_registerAll, Table.get?_insertAll]

theorem mem_registrations_iff {accepted : List (String × TypeInfo)}
    {factory : Option OperationFactory} :
    (key, factory) ∈ registrations namespaceName accepted ↔
      ∃ info, (key.typeName, info) ∈ accepted ∧ key.namespaceName = namespaceName ∧
        info.factory = factory := by
  obtain ⟨owner, name⟩ := key
  simp only [registrations, List.mem_map, Prod.mk.injEq, OperationKey.mk.injEq]
  constructor
  · intro ⟨⟨_, info⟩, hmem, ⟨howner, hname⟩, hfactory⟩
    subst hname
    exact ⟨info, hmem, howner.symm, hfactory⟩
  · intro ⟨info, hmem, howner, hfactory⟩
    exact ⟨(name, info), hmem, ⟨howner.symm, rfl⟩, hfactory⟩

theorem lastValue?_registrations_eq_none_iff {accepted : List (String × TypeInfo)} :
    lastValue? (registrations namespaceName accepted) key = none ↔
      ¬ (key.namespaceName = namespaceName ∧ key.typeName ∈ accepted.map Prod.fst) := by
  rw [lastValue?_eq_none_iff]
  constructor
  · intro hnone ⟨howner, hname⟩
    obtain ⟨⟨_, info⟩, hmem, rfl⟩ := List.mem_map.mp hname
    exact hnone _ (mem_registrations_iff.mpr ⟨info, hmem, howner, rfl⟩) rfl
  · intro hfree binding hbinding hkey
    subst hkey
    obtain ⟨info, hmem, howner, -⟩ := mem_registrations_iff.mp hbinding
    exact hfree ⟨howner, List.mem_map.mpr ⟨_, hmem, rfl⟩⟩

theorem get?_registerAll_of_free {accepted : List (String × TypeInfo)}
    (hfree : ¬ (key.namespaceName = namespaceName ∧ key.typeName ∈ accepted.map Prod.fst)) :
    (r.registerAll namespaceName accepted).entries.get? key = r.entries.get? key := by
  rw [get?_registerAll, lastValue?_registrations_eq_none_iff.mpr hfree, Option.none_or]

theorem contains_registerAll {accepted : List (String × TypeInfo)} :
    (r.registerAll namespaceName accepted).contains key = true ↔
      r.contains key = true ∨
        key.namespaceName = namespaceName ∧ key.typeName ∈ accepted.map Prod.fst := by
  by_cases hbound : key.namespaceName = namespaceName ∧ key.typeName ∈ accepted.map Prod.fst
  · have hsome : lastValue? (registrations namespaceName accepted) key ≠ none := fun hnone =>
      lastValue?_registrations_eq_none_iff.mp hnone hbound
    obtain ⟨factory, hfactory⟩ := Option.ne_none_iff_exists'.mp hsome
    simp [contains, Table.contains, get?_registerAll, hfactory, hbound]
  · simp only [contains, Table.contains, get?_registerAll_of_free hbound, hbound, or_false]

/-- Of several accepted members of one name, the last one binds the key. -/
theorem get?_registerAll_of_last {before later : List (String × TypeInfo)} {name : String}
    {info : TypeInfo} (hlast : ∀ other ∈ later, other.1 ≠ name) :
    (r.registerAll namespaceName (before ++ (name, info) :: later)).entries.get?
      ⟨namespaceName, name⟩ = some info.factory := by
  have hbound : lastValue? (registrations namespaceName (before ++ (name, info) :: later))
      ⟨namespaceName, name⟩ = some info.factory := by
    refine lastValue?_eq_some_iff.mpr ⟨registrations namespaceName before,
      registrations namespaceName later, by simp [registrations], fun binding hbinding hkey => ?_⟩
    obtain ⟨other, hother, rfl⟩ := List.mem_map.mp hbinding
    exact hlast other hother (OperationKey.mk.inj hkey).2
  rw [get?_registerAll, hbound, Option.some_or]

theorem get?_registerAll_perm {accepted others : List (String × TypeInfo)}
    (hdistinct : (accepted.map Prod.fst).Nodup) (hperm : others.Perm accepted) :
    (r.registerAll namespaceName others).entries.get? key =
      (r.registerAll namespaceName accepted).entries.get? key := by
  have hkeys : ∀ {list : List (String × TypeInfo)}, (list.map Prod.fst).Nodup →
      ((registrations namespaceName list).map Prod.fst).Nodup := by
    intro list hlist
    have hmap : (registrations namespaceName list).map Prod.fst =
        (list.map Prod.fst).map fun name => ⟨namespaceName, name⟩ := by
      simp [registrations, List.map_map, Function.comp_def]
    rw [hmap]
    exact hlist.map fun a b heq => (OperationKey.mk.inj heq).2
  have hothers : (others.map Prod.fst).Nodup := (hperm.map Prod.fst).nodup_iff.mpr hdistinct
  have hbindings : (registrations namespaceName others).Perm
      (registrations namespaceName accepted) := hperm.map _
  -- With distinct keys the last binding of a key is the only one, which the order does not move.
  have hlast : lastValue? (registrations namespaceName others) key =
      lastValue? (registrations namespaceName accepted) key := by
    refine Option.ext fun factory => ⟨fun hlast => ?_, fun hlast => ?_⟩
    · exact lastValue?_eq_some_of_nodup (hkeys hdistinct)
        (hbindings.mem_iff.mp (mem_of_lastValue?_eq_some hlast))
    · exact lastValue?_eq_some_of_nodup (hkeys hothers)
        (hbindings.mem_iff.mpr (mem_of_lastValue?_eq_some hlast))
  rw [get?_registerAll, get?_registerAll, hlast]

theorem isSubtype_registerAll_perm {accepted others : List (String × TypeInfo)}
    (hperm : others.Perm accepted) (sub super : String) :
    (r.registerAll namespaceName others).types.isSubtype sub super =
      (r.registerAll namespaceName accepted).types.isSubtype sub super := by
  refine TypeHierarchy.isSubtype_congr (fun sub base => ?_) sub super
  rw [types_registerAll, types_registerAll, TypeHierarchy.hasBase_foldl_declareType,
    TypeHierarchy.hasBase_foldl_declareType]
  simp only [(hperm.map Prod.snd).mem_iff]

/-! ## Imports -/

theorem importMembers_eq (r : OperationRegistry) (namespaceName : String)
    (members : List NamespaceMember) (baseType : String) :
    r.importMembers namespaceName members baseType =
      (summarizeImport (r.types.declareMembers members) baseType members,
        r.registerAll namespaceName
          (acceptedMembers (r.types.declareMembers members) baseType members)) := rfl

theorem classify_declareMembers_perm (hperm : others.Perm members) (value : MemberValue) :
    (r.types.declareMembers others).classify baseType value =
      (r.types.declareMembers members).classify baseType value := by
  refine TypeHierarchy.classify_congr ?_ value
  rw [hasBase_declareMembers_eq, hasBase_declareMembers_eq, importSteps_perm r hperm]

theorem acceptedMembers_perm (r : OperationRegistry) (baseType : String)
    (hperm : others.Perm members) :
    (acceptedMembers (r.types.declareMembers others) baseType others).Perm
      (acceptedMembers (r.types.declareMembers members) baseType members) := by
  simp only [acceptedMembers, classify_declareMembers_perm hperm]
  exact hperm.filterMap _

theorem skippedMembers_perm (r : OperationRegistry) (baseType : String)
    (hperm : others.Perm members) :
    (skippedMembers (r.types.declareMembers others) baseType others).Perm
      (skippedMembers (r.types.declareMembers members) baseType members) := by
  simp only [skippedMembers, classify_declareMembers_perm hperm]
  exact hperm.filterMap _

/-- An import registers the types that are the base type or reach it along what is known and what
the members declare, under the names of the members, and skips the others for the reason that their
kind gives; no other entry changes, and the order of the scan does not matter. -/
theorem importMembers_exact (r : OperationRegistry) (namespaceName baseType : String)
    (members : List NamespaceMember) (summary : ImportSummary) (after : OperationRegistry)
    (imported : r.importMembers namespaceName members baseType = (summary, after)) :
    summary.registered =
      (members.filter fun member => member.IsOperation (r.ImportSteps members) baseType).map
        NamespaceMember.name ∧
    summary.skipped =
      (members.filter fun member => ¬ member.IsOperation (r.ImportSteps members) baseType).map
        (fun member => (member.name, member.value.skipReason)) ∧
    (∀ key, after.contains key = true ↔
      r.contains key = true ∨
        key.namespaceName = namespaceName ∧ key.typeName ∈ summary.registered) ∧
    (∀ key, ¬ (key.namespaceName = namespaceName ∧ key.typeName ∈ summary.registered) →
      after.entries.get? key = r.entries.get? key) ∧
    (∀ before name info later, members = before ++ ⟨name, .type info⟩ :: later →
      NamespaceMember.IsOperation (r.ImportSteps members) baseType ⟨name, .type info⟩ →
      (∀ other ∈ later, other.name = name →
        ¬ other.IsOperation (r.ImportSteps members) baseType) →
      after.entries.get? ⟨namespaceName, name⟩ = some info.factory) ∧
    (∀ others, others.Perm members →
      (∀ member : NamespaceMember, member.IsOperation (r.ImportSteps others) baseType ↔
        member.IsOperation (r.ImportSteps members) baseType) ∧
      (r.importMembers namespaceName others baseType).1.registered.Perm summary.registered ∧
      (r.importMembers namespaceName others baseType).1.skipped.Perm summary.skipped ∧
      ((members.map NamespaceMember.name).Nodup →
        (∀ key, (r.importMembers namespaceName others baseType).2.entries.get? key =
          after.entries.get? key) ∧
        ∀ sub super, (r.importMembers namespaceName others baseType).2.types.isSubtype sub super =
          after.types.isSubtype sub super)) := by
  rw [importMembers_eq] at imported
  obtain ⟨rfl, rfl⟩ := Prod.mk.inj imported
  have hsteps := hasBase_declareMembers_eq r members
  have hregistered := map_fst_acceptedMembers baseType hsteps members
  have hskipped := skippedMembers_eq_map baseType hsteps members
  refine ⟨hregistered, hskipped, fun key => contains_registerAll,
    fun key hfree => get?_registerAll_of_free hfree, ?_, fun others hperm => ?_⟩
  · intro before name info later hmembers hoperation hlater
    obtain ⟨_, htype, hreaches⟩ := hoperation
    cases htype
    rw [← hsteps] at hreaches hlater
    rw [hmembers] at hreaches hlater ⊢
    rw [acceptedMembers_of_split (TypeHierarchy.isSubtype_iff.mpr hreaches)]
    refine get?_registerAll_of_last fun other hother hname => ?_
    obtain ⟨hmem, hsub⟩ := mem_acceptedMembers_iff.mp hother
    exact hlater _ hmem hname ⟨other.2, rfl, TypeHierarchy.isSubtype_iff.mp hsub⟩
  · have hsame := importSteps_perm r hperm
    have haccepted := acceptedMembers_perm r baseType hperm
    refine ⟨fun member => by rw [hsame], haccepted.map Prod.fst,
      skippedMembers_perm r baseType hperm,
      fun hdistinct => ⟨fun key => ?_, isSubtype_registerAll_perm haccepted⟩⟩
    refine get?_registerAll_perm ?_ haccepted
    rw [hregistered]
    exact hdistinct.sublist (List.filter_sublist.map _)

/-- A registry that knows a type and has an operation registered by name alone. -/
def workshop : OperationRegistry :=
  (OperationRegistry.declareType {} { name := "XmlOperation", bases := ["Operation"] }).register
    ⟨"mesh", "Smooth"⟩

/-- Two types that derive from each other, one of them from a known type, under names that are not
theirs; a type that derives from itself; a value; and a nested namespace. -/
def workshopMembers : List NamespaceMember :=
  [⟨"Read", .type { name := "ReadMesh", bases := ["WriteMesh"] }⟩,
    ⟨"loop", .type { name := "Loop", bases := ["Loop", "Missing"] }⟩,
    ⟨"limit", .value (.bool true)⟩,
    ⟨"inner", .nested "mesh.inner"⟩,
    ⟨"Write", .type { name := "WriteMesh", bases := ["ReadMesh", "XmlOperation"] }⟩]

theorem importMembers_exact_workshop :
    ∃ summary after,
      workshop.importMembers "mesh" workshopMembers "Operation" = (summary, after) ∧
        summary.registered = ["Read", "Write"] ∧
        summary.skipped =
          [("loop", .notAnOperation), ("limit", .notAType), ("inner", .nestedNamespace)] ∧
        after.contains ⟨"mesh", "Smooth"⟩ = true ∧ after.contains ⟨"mesh", "Read"⟩ = true ∧
        after.contains ⟨"mesh", "ReadMesh"⟩ = false ∧
        (workshop.importMembers "mesh" workshopMembers.reverse "Operation").1.registered.Perm
          ["Read", "Write"] := by
  obtain ⟨hregistered, hskipped, hcontains, -, -, hperm⟩ :=
    importMembers_exact workshop "mesh" "Operation" workshopMembers _ _ rfl
  have hnames : (workshopMembers.filter fun member =>
      member.IsOperation (workshop.ImportSteps workshopMembers) "Operation").map
        NamespaceMember.name = ["Read", "Write"] := by decide +kernel
  rw [hnames] at hregistered
  refine ⟨_, _, rfl, hregistered, hskipped.trans (by decide +kernel),
    (hcontains _).mpr (Or.inl (by decide +kernel)), (hcontains _).mpr (Or.inr ⟨rfl, ?_⟩), ?_,
    hregistered ▸ (hperm _ (List.reverse_perm _)).2.1⟩
  · rw [hregistered]
    decide
  · rw [← Bool.not_eq_true, hcontains, hregistered]
    decide +kernel

end OperationRegistry

end MethodSynthesis
