import MethodSynthesis.Proofs.RegistryRuns

/-!
# Imports one after another

An import keeps the declarations of the types that it registers and forgets the others. What it
forgets lies on no path to the base type, so a further import below the same base type finds
everything that the first one found. Importing members in two parts can only miss types of the
first part that reach the base type through the second.
-/

namespace MethodSynthesis

open Relation

/-- Steps that lead on to the root can be left away only where no path to the root uses them. -/
theorem reflTransGen_of_kept {α : Type} {steps kept : α → α → Prop} {name root : α}
    (hkept : ∀ sub base, steps sub base → ReflTransGen steps base root → kept sub base)
    (hpath : ReflTransGen steps name root) : ReflTransGen kept name root := by
  induction hpath using ReflTransGen.head_induction_on with
  | refl => exact ReflTransGen.refl
  | head hstep hrest ih => exact ReflTransGen.head (hkept _ _ hstep hrest) ih

namespace TypeHierarchy

variable {h other : TypeHierarchy} {name baseType : String}

/-- Two hierarchies agree about a base type when one has all steps of the other, but for some that
lead nowhere to it. -/
theorem isSubtype_eq_of_kept (hsteps : ∀ sub base, other.HasBase sub base → h.HasBase sub base)
    (hkept : ∀ sub base, h.HasBase sub base → h.isSubtype sub baseType = true →
      other.HasBase sub base) (name : String) :
    other.isSubtype name baseType = h.isSubtype name baseType := by
  refine Bool.eq_iff_iff.mpr ⟨isSubtype_mono hsteps, fun hsub => ?_⟩
  rw [isSubtype_iff_reflTransGen] at hsub ⊢
  refine reflTransGen_of_kept (fun sub base hstep hrest => hkept sub base hstep ?_) hsub
  exact isSubtype_iff_reflTransGen.mpr (ReflTransGen.head hstep hrest)

/-! ## Declaring what is known -/

def Knows (h : TypeHierarchy) (info : TypeInfo) : Prop :=
  h.contains info.name = true ∧ ∀ base ∈ info.bases, h.HasBase info.name base

theorem get?_declareType_of_knows {info : TypeInfo} (hknows : h.Knows info) (name : String) :
    (h.declareType info).declared.get? name = h.declared.get? name :=
  get?_declare_of_subset hknows.1 hknows.2 name

theorem knows_declareType (h : TypeHierarchy) (info : TypeInfo) :
    (h.declareType info).Knows info := by
  refine ⟨?_, fun base hbase => hasBase_declareType.mpr (Or.inr ⟨rfl, hbase⟩)⟩
  simp [declareType, contains_declare]

theorem knows_mono {info declared : TypeInfo} (hknows : h.Knows info) :
    (h.declareType declared).Knows info := by
  refine ⟨?_, fun base hbase => hasBase_declareType.mpr (Or.inl (hknows.2 base hbase))⟩
  simp [declareType, contains_declare, hknows.1]

theorem knows_foldl_declareType_of_knows {info : TypeInfo} (hknows : h.Knows info)
    (infos : List TypeInfo) : (infos.foldl declareType h).Knows info := by
  induction infos generalizing h with
  | nil => exact hknows
  | cons first rest ih => exact ih (knows_mono hknows)

theorem knows_foldl_declareType {info : TypeInfo} {infos : List TypeInfo} (hmem : info ∈ infos) :
    (infos.foldl declareType h).Knows info := by
  induction infos generalizing h with
  | nil => cases hmem
  | cons first rest ih =>
      rcases List.mem_cons.mp hmem with rfl | hrest
      · exact knows_foldl_declareType_of_knows (knows_declareType h info) rest
      · exact ih hrest

theorem contains_foldl_declareType {infos : List TypeInfo} :
    (infos.foldl declareType h).contains name = true ↔
      h.contains name = true ∨ ∃ info ∈ infos, info.name = name := by
  induction infos generalizing h with
  | nil => simp
  | cons first rest ih =>
      simp [ih, declareType, contains_declare, eq_comm (a := name), or_assoc, or_left_comm]

theorem get?_foldl_declareType_of_knows {infos : List TypeInfo}
    (hknows : ∀ info ∈ infos, h.Knows info) (name : String) :
    (infos.foldl declareType h).declared.get? name = h.declared.get? name := by
  induction infos generalizing h with
  | nil => rfl
  | cons first rest ih =>
      obtain ⟨hfirst, hrest⟩ := List.forall_mem_cons.mp hknows
      rw [List.foldl_cons, ih fun info hinfo => knows_mono (hrest info hinfo),
        get?_declareType_of_knows hfirst]

end TypeHierarchy

/-! ## Accepted members under two hierarchies -/

section Scan

variable {h other : TypeHierarchy} {baseType : String} {members : List NamespaceMember}

theorem acceptedMembers_append (h : TypeHierarchy) (baseType : String)
    (front back : List NamespaceMember) :
    acceptedMembers h baseType (front ++ back) =
      acceptedMembers h baseType front ++ acceptedMembers h baseType back :=
  List.filterMap_append

theorem classify_congr
    (hsame : ∀ name info, ⟨name, .type info⟩ ∈ members →
      other.isSubtype info.name baseType = h.isSubtype info.name baseType)
    {member : NamespaceMember} (hmember : member ∈ members) :
    other.classify baseType member.value = h.classify baseType member.value := by
  obtain ⟨name, value⟩ := member
  cases value with
  | type info => simp only [TypeHierarchy.classify, hsame name info hmember]
  | value v => rfl
  | nested fullName => rfl

theorem acceptedMembers_congr
    (hsame : ∀ name info, ⟨name, .type info⟩ ∈ members →
      other.isSubtype info.name baseType = h.isSubtype info.name baseType) :
    acceptedMembers other baseType members = acceptedMembers h baseType members :=
  List.filterMap_congr fun member hmember => by rw [classify_congr hsame hmember]

theorem skippedMembers_congr
    (hsame : ∀ name info, ⟨name, .type info⟩ ∈ members →
      other.isSubtype info.name baseType = h.isSubtype info.name baseType) :
    skippedMembers other baseType members = skippedMembers h baseType members :=
  List.filterMap_congr fun member hmember => by rw [classify_congr hsame hmember]

/-- With more subtypes of the base type, members are accepted between those from before. -/
theorem acceptedMembers_sublist
    (hmono : ∀ name, h.isSubtype name baseType = true → other.isSubtype name baseType = true)
    (members : List NamespaceMember) :
    (acceptedMembers h baseType members).Sublist (acceptedMembers other baseType members) := by
  induction members with
  | nil => exact List.Sublist.refl _
  | cons member rest ih =>
      cases hclass : h.classify baseType member.value with
      | ok info =>
          obtain ⟨hvalue, hsub⟩ := TypeHierarchy.classify_eq_ok_iff.mp hclass
          have hother : other.classify baseType member.value = .ok info :=
            TypeHierarchy.classify_eq_ok_iff.mpr ⟨hvalue, hmono _ hsub⟩
          simpa [acceptedMembers, hclass, hother] using ih
      | error reason =>
          cases hother : other.classify baseType member.value with
          | ok info => simpa [acceptedMembers, hclass, hother] using ih.cons (member.name, info)
          | error other => simpa [acceptedMembers, hclass, hother] using ih

end Scan

namespace OperationRegistry

variable {r : OperationRegistry} {namespaceName baseType : String}
  {members front back : List NamespaceMember}

def accepted (r : OperationRegistry) (baseType : String) (members : List NamespaceMember) :
    List (String × TypeInfo) :=
  acceptedMembers (r.types.declareMembers members) baseType members

theorem mem_accepted_iff {name : String} {info : TypeInfo} :
    (name, info) ∈ r.accepted baseType members ↔
      ⟨name, .type info⟩ ∈ members ∧
        (r.types.declareMembers members).isSubtype info.name baseType = true :=
  mem_acceptedMembers_iff

theorem importMembers_accepted (r : OperationRegistry) (namespaceName baseType : String)
    (members : List NamespaceMember) :
    r.importMembers namespaceName members baseType =
      (⟨(r.accepted baseType members).map Prod.fst,
          skippedMembers (r.types.declareMembers members) baseType members⟩,
        r.registerAll namespaceName (r.accepted baseType members)) := rfl

/-! ## What an import keeps -/

/-- The registry behind an import has all the steps on paths to the base type, and no others than
the import looked along. -/
theorem isSubtype_registerAll_accepted (r : OperationRegistry) (namespaceName baseType : String)
    (members : List NamespaceMember) (name : String) :
    (r.registerAll namespaceName (r.accepted baseType members)).types.isSubtype name baseType =
      (r.types.declareMembers members).isSubtype name baseType := by
  refine TypeHierarchy.isSubtype_eq_of_kept (fun sub base hstep => ?_)
    (fun sub base hstep hsub => ?_) name
  · rcases hasBase_registerAll.mp hstep with hknown | ⟨member, info, hmem, rfl, hbase⟩
    · exact TypeHierarchy.hasBase_declareMembers.mpr (Or.inl hknown)
    · obtain ⟨hmember, -⟩ := mem_accepted_iff.mp hmem
      exact TypeHierarchy.hasBase_declareMembers.mpr (Or.inr ⟨_, hmember, info, rfl, rfl, hbase⟩)
  · rcases TypeHierarchy.hasBase_declareMembers.mp hstep with hknown | ⟨member, hmember, hdeclares⟩
    · exact hasBase_registerAll.mpr (Or.inl hknown)
    · -- A type that declares a step of such a path reaches the base type and so is registered.
      obtain ⟨memberName, value⟩ := member
      obtain ⟨info, hvalue, rfl, hbase⟩ := hdeclares
      cases hvalue
      exact hasBase_registerAll.mpr
        (Or.inr ⟨memberName, info, mem_accepted_iff.mpr ⟨hmember, hsub⟩, rfl, hbase⟩)

theorem contains_types_registerAll {accepted : List (String × TypeInfo)} {name : String} :
    (r.registerAll namespaceName accepted).types.contains name = true ↔
      r.types.contains name = true ∨
        ∃ member info, (member, info) ∈ accepted ∧ info.name = name := by
  rw [types_registerAll, TypeHierarchy.contains_foldl_declareType]
  refine or_congr_right ?_
  constructor
  · intro ⟨info, hinfo, hname⟩
    obtain ⟨⟨member, _⟩, hmem, rfl⟩ := List.mem_map.mp hinfo
    exact ⟨member, _, hmem, hname⟩
  · intro ⟨member, info, hmem, hname⟩
    exact ⟨info, List.mem_map.mpr ⟨_, hmem, rfl⟩, hname⟩

theorem mem_accepted_of_base {name base : String} {info : TypeInfo}
    (hknown : r.types.isSubtype base baseType = true) (hbase : base ∈ info.bases)
    (hmember : ⟨name, .type info⟩ ∈ members) : (name, info) ∈ r.accepted baseType members := by
  refine mem_accepted_iff.mpr ⟨hmember, ?_⟩
  have hstep : (r.types.declareMembers members).HasBase info.name base :=
    TypeHierarchy.hasBase_declareMembers.mpr (Or.inr ⟨_, hmember, info, rfl, rfl, hbase⟩)
  have hrest : (r.types.declareMembers members).isSubtype base baseType = true :=
    TypeHierarchy.isSubtype_mono
      (fun _ _ hold => TypeHierarchy.hasBase_declareMembers.mpr (Or.inl hold)) hknown
  rw [TypeHierarchy.isSubtype_iff_reflTransGen] at hrest ⊢
  exact ReflTransGen.head hstep hrest

/-! ## The same import again -/

theorem isSubtype_declareMembers_again (r : OperationRegistry) (namespaceName baseType : String)
    (members : List NamespaceMember) (name : String) :
    ((r.registerAll namespaceName (r.accepted baseType members)).types.declareMembers
        members).isSubtype name baseType =
      (r.types.declareMembers members).isSubtype name baseType := by
  refine TypeHierarchy.isSubtype_congr (fun sub base => ?_) name baseType
  simp only [TypeHierarchy.hasBase_declareMembers, hasBase_registerAll, or_assoc]
  refine or_congr_right ⟨fun hstep => ?_, Or.inr⟩
  rcases hstep with ⟨member, info, hmem, rfl, hbase⟩ | hdeclares
  · obtain ⟨hmember, -⟩ := mem_accepted_iff.mp hmem
    exact ⟨_, hmember, info, rfl, rfl, hbase⟩
  · exact hdeclares

theorem get?_registerAll_again (r : OperationRegistry) (namespaceName : String)
    (accepted : List (String × TypeInfo)) (key : OperationKey) :
    ((r.registerAll namespaceName accepted).registerAll namespaceName accepted).entries.get? key =
      (r.registerAll namespaceName accepted).entries.get? key := by
  rw [get?_registerAll, get?_registerAll]
  cases lastValue? (registrations namespaceName accepted) key <;> rfl

theorem get?_types_registerAll_again (r : OperationRegistry) (namespaceName : String)
    (accepted : List (String × TypeInfo)) (name : String) :
    ((r.registerAll namespaceName accepted).registerAll namespaceName
        accepted).types.declared.get? name =
      (r.registerAll namespaceName accepted).types.declared.get? name := by
  rw [types_registerAll, types_registerAll]
  exact TypeHierarchy.get?_foldl_declareType_of_knows
    (fun info hinfo => TypeHierarchy.knows_foldl_declareType hinfo) name

/-- The same import again gives the same summary and makes the same registrations. -/
theorem importMembers_again (r : OperationRegistry) (namespaceName baseType : String)
    (members : List NamespaceMember) :
    (r.registerAll namespaceName (r.accepted baseType members)).importMembers namespaceName members
        baseType =
      ((r.importMembers namespaceName members baseType).1,
        (r.registerAll namespaceName (r.accepted baseType members)).registerAll namespaceName
          (r.accepted baseType members)) := by
  have hagain : ∀ name info, (⟨name, .type info⟩ : NamespaceMember) ∈ members → _ :=
    fun _ info _ => isSubtype_declareMembers_again r namespaceName baseType members info.name
  rw [importMembers_accepted, importMembers_accepted, skippedMembers_congr hagain]
  rw [accepted, acceptedMembers_congr hagain]
  rfl

/-- An import makes known the declarations of what it registers and loses no type below the base
type by forgetting the others: in every later import below the same base type, whatever was done in
between, the types with a registered base are registered, and the same import again changes
nothing. -/
theorem importMembers_known_exact (r : OperationRegistry) (namespaceName baseType : String)
    (members : List NamespaceMember) (summary : ImportSummary) (after : OperationRegistry)
    (imported : r.importMembers namespaceName members baseType = (summary, after)) :
    summary.registered = (r.accepted baseType members).map Prod.fst ∧
    (∀ name, after.types.contains name = true ↔
      r.types.contains name = true ∨
        ∃ member info, (member, info) ∈ r.accepted baseType members ∧ info.name = name) ∧
    (∀ sub base, after.types.HasBase sub base ↔
      r.types.HasBase sub base ∨
        ∃ member info, (member, info) ∈ r.accepted baseType members ∧ info.name = sub ∧
          base ∈ info.bases) ∧
    (∀ name, after.types.isSubtype name baseType =
      (r.types.declareMembers members).isSubtype name baseType) ∧
    (∀ registered operation, (registered, operation) ∈ r.accepted baseType members →
      ∀ commands otherNamespace others member info, ⟨member, .type info⟩ ∈ others →
        operation.name ∈ info.bases →
        (member, info) ∈ (after.performAll commands).accepted baseType others ∧
        member ∈ ((after.performAll commands).importMembers otherNamespace others
          baseType).1.registered) ∧
    (after.importMembers namespaceName members baseType).1 = summary ∧
    (∀ key, (after.importMembers namespaceName members baseType).2.entries.get? key =
      after.entries.get? key) ∧
    (∀ name, (after.importMembers namespaceName members baseType).2.types.declared.get? name =
      after.types.declared.get? name) ∧
    (r.Ordered → (after.importMembers namespaceName members baseType).2 = after) := by
  have hafter : after = r.registerAll namespaceName (r.accepted baseType members) :=
    congrArg Prod.snd imported.symm
  have hsummary : summary = (r.importMembers namespaceName members baseType).1 :=
    congrArg Prod.fst imported.symm
  have hagain := importMembers_again r namespaceName baseType members
  have hentries := get?_registerAll_again r namespaceName (r.accepted baseType members)
  have htypes := get?_types_registerAll_again r namespaceName (r.accepted baseType members)
  rw [hafter, hsummary, hagain]
  refine ⟨rfl, fun name => contains_types_registerAll, fun sub base => hasBase_registerAll,
    isSubtype_registerAll_accepted r namespaceName baseType members, ?_, rfl, hentries, htypes,
    fun hordered => ?_⟩
  · intro registered operation hoperation commands otherNamespace others member info hmember hbase
    have hbelow := (mem_accepted_iff.mp hoperation).2
    rw [← isSubtype_registerAll_accepted r namespaceName baseType members] at hbelow
    have hlater := TypeHierarchy.isSubtype_mono
      (fun _ _ hstep => hasBase_performAll commands hstep) hbelow
    have haccepted := mem_accepted_of_base hlater hbase hmember
    exact ⟨haccepted, List.mem_map.mpr ⟨_, haccepted, rfl⟩⟩
  · have hafter := ordered_registerAll hordered namespaceName (r.accepted baseType members)
    exact eq_of_lookups hafter (ordered_registerAll hafter namespaceName _) hentries htypes

/-- A type below one that the workshop's import registers. -/
def fineMembers : List NamespaceMember :=
  [⟨"Fine", .type { name := "FineMesh", bases := ["Missing", "ReadMesh"] }⟩]

theorem importMembers_known_exact_workshop :
    ∃ summary after,
      workshop.importMembers "mesh" workshopMembers "Operation" = (summary, after) ∧
        after.types.contains "WriteMesh" = true ∧ after.types.contains "Loop" = false ∧
        after.types.isSubtype "ReadMesh" "Operation" = true ∧
        (∀ commands, "Fine" ∈ ((after.performAll commands).importMembers "other" fineMembers
          "Operation").1.registered) ∧
        after.importMembers "mesh" workshopMembers "Operation" = (summary, after) := by
  obtain ⟨-, hcontains, -, hsub, hlater, hsummary, -, -, hsame⟩ :=
    importMembers_known_exact workshop "mesh" "Operation" workshopMembers _ _ rfl
  have hordered : workshop.Ordered :=
    ordered_performAll ordered_new
      [.declareType { name := "XmlOperation", bases := ["Operation"] }, .register ⟨"mesh", "Smooth"⟩]
  have hread : ("Read", { name := "ReadMesh", bases := ["WriteMesh"] }) ∈
      workshop.accepted "Operation" workshopMembers :=
    mem_accepted_iff.mpr ⟨List.mem_cons_self, by decide +kernel⟩
  refine ⟨_, _, rfl, by decide +kernel, by decide +kernel, ?_, fun commands => ?_,
    Prod.ext hsummary (hsame hordered)⟩
  · rw [hsub]
    decide +kernel
  · exact (hlater _ _ hread commands "other" fineMembers "Fine" _ List.mem_cons_self (by simp)).2

/-! ## Members in two parts -/

/-- What the second part is classified by when the parts are imported one after the other has the
steps of an import of both parts at once. -/
theorem hasBase_declareMembers_parts {sub base : String}
    (hstep : ((r.registerAll namespaceName (r.accepted baseType front)).types.declareMembers
      back).HasBase sub base) :
    (r.types.declareMembers (front ++ back)).HasBase sub base := by
  rw [TypeHierarchy.hasBase_declareMembers, hasBase_registerAll] at hstep
  rw [TypeHierarchy.hasBase_declareMembers]
  rcases hstep with (hknown | ⟨name, info, hmem, rfl, hbase⟩) | ⟨member, hmember, hdeclares⟩
  · exact Or.inl hknown
  · obtain ⟨hmember, -⟩ := mem_accepted_iff.mp hmem
    exact Or.inr ⟨_, List.mem_append_left _ hmember, info, rfl, rfl, hbase⟩
  · exact Or.inr ⟨member, List.mem_append_right _ hmember, hdeclares⟩

theorem hasBase_declareMembers_front {sub base : String}
    (hstep : (r.types.declareMembers front).HasBase sub base) :
    (r.types.declareMembers (front ++ back)).HasBase sub base := by
  rw [TypeHierarchy.hasBase_declareMembers] at hstep ⊢
  refine hstep.imp_right fun ⟨member, hmember, hdeclares⟩ => ?_
  exact ⟨member, List.mem_append_left _ hmember, hdeclares⟩

/-- No type that the import of the first part skips reaches the base type when the second part is
declared too. -/
def NoneMissed (r : OperationRegistry) (baseType : String) (front back : List NamespaceMember) :
    Prop :=
  ∀ member ∈ front,
    (r.types.declareMembers front).classify baseType member.value = .error .notAnOperation →
      ¬ member.IsOperation (r.ImportSteps (front ++ back)) baseType

theorem isSubtype_front_of_noneMissed (hnone : r.NoneMissed baseType front back) {name : String}
    {info : TypeInfo} (hmember : ⟨name, .type info⟩ ∈ front)
    (hsub : (r.types.declareMembers (front ++ back)).isSubtype info.name baseType = true) :
    (r.types.declareMembers front).isSubtype info.name baseType = true := by
  by_contra hno
  refine hnone _ hmember (by simp [TypeHierarchy.classify, hno]) ?_
  rw [← hasBase_declareMembers_eq]
  exact ⟨info, rfl, TypeHierarchy.isSubtype_iff.mp hsub⟩

theorem isSubtype_declareMembers_parts (hnone : r.NoneMissed baseType front back) (name : String) :
    ((r.registerAll namespaceName (r.accepted baseType front)).types.declareMembers
        back).isSubtype name baseType =
      (r.types.declareMembers (front ++ back)).isSubtype name baseType := by
  refine TypeHierarchy.isSubtype_eq_of_kept (fun _ _ => hasBase_declareMembers_parts)
    (fun sub base hstep hsub => ?_) name
  rw [TypeHierarchy.hasBase_declareMembers] at hstep ⊢
  rcases hstep with hknown | ⟨⟨memberName, value⟩, hmember, info, hvalue, rfl, hbase⟩
  · exact Or.inl (hasBase_registerAll.mpr (Or.inl hknown))
  · cases hvalue
    rcases List.mem_append.mp hmember with hfront | hback
    · have haccepted := mem_accepted_iff.mpr
        ⟨hfront, isSubtype_front_of_noneMissed hnone hfront hsub⟩
      exact Or.inl (hasBase_registerAll.mpr (Or.inr ⟨memberName, info, haccepted, rfl, hbase⟩))
    · exact Or.inr ⟨_, hback, info, rfl, rfl, hbase⟩

theorem accepted_append (r : OperationRegistry) (baseType : String)
    (front back : List NamespaceMember) :
    r.accepted baseType (front ++ back) =
      acceptedMembers (r.types.declareMembers (front ++ back)) baseType front ++
        acceptedMembers (r.types.declareMembers (front ++ back)) baseType back :=
  acceptedMembers_append _ _ _ _

theorem accepted_front_sublist (r : OperationRegistry) (baseType : String)
    (front back : List NamespaceMember) :
    (r.accepted baseType front).Sublist
      (acceptedMembers (r.types.declareMembers (front ++ back)) baseType front) :=
  acceptedMembers_sublist
    (fun _ => TypeHierarchy.isSubtype_mono fun _ _ => hasBase_declareMembers_front) front

theorem accepted_back_sublist (r : OperationRegistry) (namespaceName baseType : String)
    (front back : List NamespaceMember) :
    ((r.registerAll namespaceName (r.accepted baseType front)).accepted baseType back).Sublist
      (acceptedMembers (r.types.declareMembers (front ++ back)) baseType back) :=
  acceptedMembers_sublist
    (fun _ => TypeHierarchy.isSubtype_mono fun _ _ => hasBase_declareMembers_parts) back

theorem accepted_parts_of_noneMissed (hnone : r.NoneMissed baseType front back) :
    r.accepted baseType front ++
        (r.registerAll namespaceName (r.accepted baseType front)).accepted baseType back =
      r.accepted baseType (front ++ back) := by
  rw [accepted_append]
  congr 1
  · refine acceptedMembers_congr fun name info hmember => Bool.eq_iff_iff.mpr ⟨?_, ?_⟩
    · exact TypeHierarchy.isSubtype_mono fun _ _ => hasBase_declareMembers_front
    · exact isSubtype_front_of_noneMissed hnone hmember
  · exact acceptedMembers_congr fun _ info _ => isSubtype_declareMembers_parts hnone info.name

/-- A type that is missed makes the first part register less than it does beside the second. -/
theorem noneMissed_of_length_eq
    (hlength : (r.accepted baseType front ++
        (r.registerAll namespaceName (r.accepted baseType front)).accepted baseType back).length =
      (r.accepted baseType (front ++ back)).length) : r.NoneMissed baseType front back := by
  have hfront := accepted_front_sublist r baseType front back
  have hback := (accepted_back_sublist r namespaceName baseType front back).length_le
  have hsame : r.accepted baseType front =
      acceptedMembers (r.types.declareMembers (front ++ back)) baseType front := by
    refine hfront.eq_of_length ?_
    have hle := hfront.length_le
    rw [accepted_append, List.length_append, List.length_append] at hlength
    omega
  intro member hmember hskipped hoperation
  obtain ⟨name, value⟩ := member
  obtain ⟨info, hvalue, hreaches⟩ := hoperation
  cases hvalue
  rw [← hasBase_declareMembers_eq] at hreaches
  have haccepted : (name, info) ∈ r.accepted baseType front := by
    rw [hsame]
    exact mem_acceptedMembers_iff.mpr ⟨hmember, TypeHierarchy.isSubtype_iff.mpr hreaches⟩
  have hclass := TypeHierarchy.classify_eq_ok_iff.mpr ⟨rfl, (mem_accepted_iff.mp haccepted).2⟩
  rw [hclass] at hskipped
  cases hskipped

theorem registerAll_append (r : OperationRegistry) (namespaceName : String)
    (front back : List (String × TypeInfo)) :
    r.registerAll namespaceName (front ++ back) =
      (r.registerAll namespaceName front).registerAll namespaceName back :=
  List.foldl_append

/-- Members imported in two parts are some of those that are registered when both parts are imported
at once, and they are all of them exactly when no type that the first import skips reaches the base
type with the second part declared; then the registry comes out the same. -/
theorem importMembers_parts_exact (r first second whole : OperationRegistry)
    (namespaceName baseType : String) (front back : List NamespaceMember)
    (frontSummary backSummary wholeSummary : ImportSummary)
    (importedFront : r.importMembers namespaceName front baseType = (frontSummary, first))
    (importedBack : first.importMembers namespaceName back baseType = (backSummary, second))
    (importedWhole : r.importMembers namespaceName (front ++ back) baseType =
      (wholeSummary, whole)) :
    (r.accepted baseType front ++ first.accepted baseType back).Sublist
      (r.accepted baseType (front ++ back)) ∧
    (frontSummary.registered ++ backSummary.registered).Sublist wholeSummary.registered ∧
    (frontSummary.registered ++ backSummary.registered = wholeSummary.registered ↔
      ∀ member ∈ front,
        (r.types.declareMembers front).classify baseType member.value = .error .notAnOperation →
          ¬ member.IsOperation (r.ImportSteps (front ++ back)) baseType) ∧
    (frontSummary.registered ++ backSummary.registered = wholeSummary.registered →
      second = whole) := by
  rw [importMembers_accepted] at importedFront importedBack importedWhole
  obtain ⟨rfl, rfl⟩ := Prod.mk.inj importedFront
  obtain ⟨rfl, rfl⟩ := Prod.mk.inj importedBack
  obtain ⟨rfl, rfl⟩ := Prod.mk.inj importedWhole
  simp only [← List.map_append]
  have hsublist : (r.accepted baseType front ++
      (r.registerAll namespaceName (r.accepted baseType front)).accepted baseType back).Sublist
        (r.accepted baseType (front ++ back)) := by
    rw [accepted_append]
    exact (accepted_front_sublist r baseType front back).append
      (accepted_back_sublist r namespaceName baseType front back)
  have hlength : ∀ {xs ys : List (String × TypeInfo)}, xs.map Prod.fst = ys.map Prod.fst →
      xs.length = ys.length := fun hnames => by
    simpa only [List.length_map] using congrArg List.length hnames
  refine ⟨hsublist, hsublist.map Prod.fst, ⟨fun hnames => ?_, fun hnone => ?_⟩, fun hnames => ?_⟩
  · exact noneMissed_of_length_eq (hlength hnames)
  · rw [accepted_parts_of_noneMissed hnone]
  · rw [← registerAll_append, hsublist.eq_of_length (hlength hnames)]

def baseMembers : List NamespaceMember :=
  [⟨"limit", .value (.bool true)⟩, ⟨"Base", .type { name := "Mesh", bases := ["XmlOperation"] }⟩]

def derivedMembers : List NamespaceMember :=
  [⟨"Derived", .type { name := "FineMesh", bases := ["Mesh", "FineMesh"] }⟩]

/-- The base may be imported first and not last. -/
theorem importMembers_parts_exact_workshop :
    (∃ first second whole frontSummary backSummary wholeSummary,
      workshop.importMembers "mesh" baseMembers "Operation" = (frontSummary, first) ∧
        first.importMembers "mesh" derivedMembers "Operation" = (backSummary, second) ∧
        workshop.importMembers "mesh" (baseMembers ++ derivedMembers) "Operation" =
          (wholeSummary, whole) ∧
        frontSummary.registered ++ backSummary.registered = wholeSummary.registered ∧
        second = whole) ∧
    ∃ first second whole frontSummary backSummary wholeSummary,
      workshop.importMembers "mesh" derivedMembers "Operation" = (frontSummary, first) ∧
        first.importMembers "mesh" baseMembers "Operation" = (backSummary, second) ∧
        workshop.importMembers "mesh" (derivedMembers ++ baseMembers) "Operation" =
          (wholeSummary, whole) ∧
        (frontSummary.registered ++ backSummary.registered).Sublist wholeSummary.registered ∧
        frontSummary.registered ++ backSummary.registered ≠ wholeSummary.registered := by
  constructor
  · obtain ⟨-, -, -, hsame⟩ := importMembers_parts_exact workshop _ _ _ "mesh" "Operation"
      baseMembers derivedMembers _ _ _ rfl rfl rfl
    exact ⟨_, _, _, _, _, _, rfl, rfl, rfl, by decide +kernel, hsame (by decide +kernel)⟩
  · obtain ⟨-, hsublist, -, -⟩ := importMembers_parts_exact workshop _ _ _ "mesh" "Operation"
      derivedMembers baseMembers _ _ _ rfl rfl rfl
    exact ⟨_, _, _, _, _, _, rfl, rfl, rfl, hsublist, by decide +kernel⟩

end OperationRegistry

end MethodSynthesis
