import MethodSynthesis.Proofs.BulkImport

/-!
# Runs of registry commands

What is done to a registry between its making and its end: declarations, registrations, removals
and bulk imports, in any order. No command forgets what is known about types, and every command
keeps the tables of the registry in key order.
-/

namespace MethodSynthesis

inductive RegistryCommand where
  | declareType (info : TypeInfo)
  | register (key : OperationKey)
  | registerType (key : OperationKey) (info : TypeInfo)
  | unregister (key : OperationKey)
  | importMembers (namespaceName : String) (members : List NamespaceMember) (baseType : String)

namespace OperationRegistry

variable {r : OperationRegistry} {sub base : String}

def perform (r : OperationRegistry) : RegistryCommand → OperationRegistry
  | .declareType info => r.declareType info
  | .register key => r.register key
  | .registerType key info => r.registerType key info
  | .unregister key => (r.unregister key).2
  | .importMembers namespaceName members baseType =>
      (r.importMembers namespaceName members baseType).2

def performAll (r : OperationRegistry) (commands : List RegistryCommand) : OperationRegistry :=
  commands.foldl perform r

/-! ## What is known about types -/

theorem hasBase_registerAll {namespaceName : String} {accepted : List (String × TypeInfo)} :
    (r.registerAll namespaceName accepted).types.HasBase sub base ↔
      r.types.HasBase sub base ∨
        ∃ name info, (name, info) ∈ accepted ∧ info.name = sub ∧ base ∈ info.bases := by
  rw [types_registerAll, TypeHierarchy.hasBase_foldl_declareType]
  refine or_congr_right ?_
  constructor
  · intro ⟨info, hinfo, hstep⟩
    obtain ⟨⟨name, _⟩, hmem, rfl⟩ := List.mem_map.mp hinfo
    exact ⟨name, _, hmem, hstep⟩
  · intro ⟨name, info, hmem, hstep⟩
    exact ⟨info, List.mem_map.mpr ⟨_, hmem, rfl⟩, hstep⟩

theorem hasBase_perform (command : RegistryCommand) (hbase : r.types.HasBase sub base) :
    (r.perform command).types.HasBase sub base := by
  cases command with
  | declareType info => exact TypeHierarchy.hasBase_declareType.mpr (Or.inl hbase)
  | register key => exact hbase
  | registerType key info => exact TypeHierarchy.hasBase_declareType.mpr (Or.inl hbase)
  | unregister key => exact hbase
  | importMembers namespaceName members baseType => exact hasBase_registerAll.mpr (Or.inl hbase)

theorem hasBase_performAll (commands : List RegistryCommand) (hbase : r.types.HasBase sub base) :
    (r.performAll commands).types.HasBase sub base := by
  induction commands generalizing r with
  | nil => exact hbase
  | cons command rest ih => exact ih (hasBase_perform command hbase)

/-! ## Registries in key order -/

structure Ordered (r : OperationRegistry) : Prop where
  entries : r.entries.Ordered
  types : r.types.declared.Ordered

theorem ordered_new : Ordered {} := ⟨Table.ordered_empty, Table.ordered_empty⟩

theorem ordered_registerType (h : r.Ordered) (key : OperationKey) (info : TypeInfo) :
    (r.registerType key info).Ordered where
  entries := Table.ordered_insert h.entries _ _
  types := TypeHierarchy.ordered_declare h.types _ _

theorem ordered_registerAll (h : r.Ordered) (namespaceName : String)
    (accepted : List (String × TypeInfo)) : (r.registerAll namespaceName accepted).Ordered := by
  induction accepted generalizing r with
  | nil => exact h
  | cons first rest ih => exact ih (ordered_registerType h _ _)

theorem ordered_perform (h : r.Ordered) (command : RegistryCommand) :
    (r.perform command).Ordered := by
  cases command with
  | declareType info => exact ⟨h.entries, TypeHierarchy.ordered_declare h.types _ _⟩
  | register key => exact ⟨Table.ordered_insert h.entries _ _, h.types⟩
  | registerType key info => exact ordered_registerType h key info
  | unregister key => exact ⟨Table.ordered_erase h.entries _, h.types⟩
  | importMembers namespaceName members baseType => exact ordered_registerAll h namespaceName _

theorem ordered_performAll (h : r.Ordered) (commands : List RegistryCommand) :
    (r.performAll commands).Ordered := by
  induction commands generalizing r with
  | nil => exact h
  | cons command rest ih => exact ih (ordered_perform h command)

theorem eq_of_lookups {other : OperationRegistry} (h : r.Ordered) (hother : other.Ordered)
    (hentries : ∀ key, other.entries.get? key = r.entries.get? key)
    (htypes : ∀ name, other.types.declared.get? name = r.types.declared.get? name) :
    other = r := by
  obtain ⟨entries, ⟨declared⟩⟩ := r
  obtain ⟨entries', ⟨declared'⟩⟩ := other
  have he : entries' = entries := Table.eq_of_get?_eq hother.entries h.entries hentries
  have ht : declared' = declared := Table.eq_of_get?_eq hother.types h.types htypes
  rw [he, ht]

end OperationRegistry

end MethodSynthesis
