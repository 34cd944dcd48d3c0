import MethodSynthesis.Proofs.ByteOrder
import MethodSynthesis.Proofs.RegistryRuns

/-!
# Registries and their history

A run of commands is a list of changes to entries, in which an import stands for one registration of
each operation among its members. What a registry answers about a key is what the last change of the
key left behind.
-/

namespace MethodSynthesis

/-! ## Changes of entries -/

inductive EntryChange where
  | registration (factory : Option OperationFactory)
  | removal

def EntryChange.entry : EntryChange → Option (Option OperationFactory)
  | .registration factory => some factory
  | .removal => none

/-- What stands behind the last change, if there is one, in the place of what stood there before. -/
def EntryChange.settle (before : Option (Option OperationFactory)) :
    Option EntryChange → Option (Option OperationFactory)
  | some change => change.entry
  | none => before

def MemberValue.factory? (value : MemberValue) : Option OperationFactory :=
  value.type?.bind TypeInfo.factory

namespace OperationKey

/-- By the bytes of the namespace first, then by the bytes of the type name. -/
def Before (a b : OperationKey) : Prop :=
  Text.utf8Bytes a.namespaceName < Text.utf8Bytes b.namespaceName ∨
    a.namespaceName = b.namespaceName ∧ Text.utf8Bytes a.typeName < Text.utf8Bytes b.typeName

theorem before_iff_compare {a b : OperationKey} : a.Before b ↔ compare a b = .lt := by
  have hlex : compare a b = .lt ↔ compare a.namespaceName b.namespaceName = .lt ∨
      compare a.namespaceName b.namespaceName = .eq ∧ compare a.typeName b.typeName = .lt :=
    Ordering.then_eq_lt
  rw [hlex, Before, Text.compare_eq_lt_iff, Text.compare_eq_lt_iff, Std.compare_eq_iff_eq]

end OperationKey

namespace OperationRegistry

variable {r : OperationRegistry} {key other : OperationKey}

/-- The changes that a command makes, in the order in which it makes them. -/
def changes (r : OperationRegistry) : RegistryCommand → List (OperationKey × EntryChange)
  | .declareType _ => []
  | .register key => [(key, .registration none)]
  | .registerType key info => [(key, .registration info.factory)]
  | .unregister key => [(key, .removal)]
  | .importMembers namespaceName members baseType =>
      (members.filter fun member => member.IsOperation (r.ImportSteps members) baseType).map
        fun member => (⟨namespaceName, member.name⟩, .registration member.value.factory?)

/-- The changes along a run; an import sees the types that are known when it is reached. -/
def history (r : OperationRegistry) : List RegistryCommand → List (OperationKey × EntryChange)
  | [] => []
  | command :: rest => r.changes command ++ (r.perform command).history rest

/-! ## One command -/

theorem registrations_acceptedMembers (r : OperationRegistry) (namespaceName baseType : String)
    (members : List NamespaceMember) :
    registrations namespaceName
        (acceptedMembers (r.types.declareMembers members) baseType members) =
      (members.filter fun member => member.IsOperation (r.ImportSteps members) baseType).map
        fun member => (⟨namespaceName, member.name⟩, member.value.factory?) := by
  rw [registrations, acceptedMembers, List.map_filterMap, ← List.filterMap_eq_map,
    List.filterMap_filter]
  refine List.filterMap_congr fun member _ => ?_
  have hoperation :=
    TypeHierarchy.isOperation_iff_classify (r.types.declareMembers members) baseType member
  rw [hasBase_declareMembers_eq] at hoperation
  cases hclass : (r.types.declareMembers members).classify baseType member.value with
  | ok info =>
      have hyes : member.IsOperation (r.ImportSteps members) baseType :=
        hoperation.mpr ⟨info, hclass⟩
      obtain ⟨hvalue, -⟩ := TypeHierarchy.classify_eq_ok_iff.mp hclass
      simp [hyes, hvalue, MemberValue.factory?, MemberValue.type?]
  | error reason =>
      have hno : ¬ member.IsOperation (r.ImportSteps members) baseType := by
        simp [hoperation, hclass]
      simp [hno]

theorem changes_importMembers (r : OperationRegistry) (namespaceName baseType : String)
    (members : List NamespaceMember) :
    r.changes (.importMembers namespaceName members baseType) =
      (registrations namespaceName
        (acceptedMembers (r.types.declareMembers members) baseType members)).map
          fun binding => (binding.1, .registration binding.2) := by
  rw [registrations_acceptedMembers, List.map_map]
  rfl

theorem settle_singleton (before : Option (Option OperationFactory)) (target key : OperationKey)
    (change : EntryChange) :
    EntryChange.settle before (lastValue? [(target, change)] key) =
      if key = target then change.entry else before := by
  by_cases h : key = target
  · simp [lastValue?_singleton, h, EntryChange.settle]
  · simp [lastValue?_singleton, h, Ne.symm h, EntryChange.settle]

/-- A command leaves behind its last change of a key, and the entries of the keys that it does not
change. -/
theorem get?_perform (r : OperationRegistry) (command : RegistryCommand) (key : OperationKey) :
    (r.perform command).entries.get? key =
      EntryChange.settle (r.entries.get? key) (lastValue? (r.changes command) key) := by
  cases command with
  | declareType info => rfl
  | register target =>
      rw [changes, settle_singleton]
      simp [perform, register, Table.get?_insert, EntryChange.entry]
  | registerType target info =>
      rw [changes, settle_singleton]
      simp [perform, registerType, Table.get?_insert, EntryChange.entry]
  | unregister target =>
      rw [changes, settle_singleton]
      simp [perform, unregister, Table.get?_erase, EntryChange.entry]
  | importMembers namespaceName members baseType =>
      rw [changes_importMembers, lastValue?_map_snd, perform, importMembers_eq, get?_registerAll]
      cases lastValue? (registrations namespaceName _) key <;> rfl

/-! ## Runs -/

/-- A run leaves behind its last change of a key, whichever command made it. -/
theorem get?_performAll (r : OperationRegistry) (commands : List RegistryCommand)
    (key : OperationKey) :
    (r.performAll commands).entries.get? key =
      EntryChange.settle (r.entries.get? key) (lastValue? (r.history commands) key) := by
  induction commands generalizing r with
  | nil => rfl
  | cons command rest ih =>
      rw [performAll, List.foldl_cons, ← performAll, ih, history, lastValue?_append, get?_perform]
      cases lastValue? ((r.perform command).history rest) key <;> rfl

theorem settle_none_eq_some_iff {last : Option EntryChange} {factory : Option OperationFactory} :
    EntryChange.settle none last = some factory ↔ last = some (.registration factory) := by
  cases last with
  | none => simp [EntryChange.settle]
  | some change => cases change <;> simp [EntryChange.settle, EntryChange.entry]

theorem get?_performAll_new {commands : List RegistryCommand} {factory : Option OperationFactory} :
    (performAll {} commands).entries.get? key = some factory ↔
      lastValue? (history {} commands) key = some (.registration factory) := by
  rw [get?_performAll]
  exact settle_none_eq_some_iff

/-! ## What a registry answers -/

theorem contains_iff : r.contains key = true ↔ ∃ factory, r.entries.get? key = some factory :=
  Option.isSome_iff_exists

theorem contains_eq_false_iff : r.contains key = false ↔ r.entries.get? key = none :=
  Option.isSome_eq_false_iff.trans Option.isNone_iff_eq_none

/-- Where there is a factory, its outcome is the answer, and it may be one of the two errors. -/
theorem create_eq_iff {outcome : Except OperationError Operation} :
    r.create key = outcome ↔
      r.contains key = false ∧
          outcome = .error (.unknownOperation key.namespaceName key.typeName) ∨
        r.entries.get? key = some none ∧
          outcome = .error (.notConstructible key.namespaceName key.typeName) ∨
        ∃ factory, r.entries.get? key = some (some factory) ∧ factory.outcome = outcome := by
  rw [contains_eq_false_iff, create]
  split
  · rename_i habsent
    simp [habsent, eq_comm]
  · rename_i hbare
    simp [hbare, eq_comm]
  · rename_i factory hfactory
    simp [hfactory]

theorem get?_unregister : (r.unregister key).2.entries.get? other =
    if other = key then none else r.entries.get? other := by
  simp [unregister, Table.get?_erase]

theorem mem_keys_iff (h : r.Ordered) : key ∈ r.keys ↔ r.contains key = true := by
  rw [keys, Table.mem_keys_iff h.entries, contains_iff]

theorem keys_increase (h : r.Ordered) : r.keys.Pairwise OperationKey.Before := by
  refine List.pairwise_map.mpr (List.Pairwise.imp (fun {a b} hlt => ?_) h.entries)
  exact OperationKey.before_iff_compare.mpr hlt

theorem map_operationsIn (r : OperationRegistry) (namespaceName : String) :
    (r.operationsIn namespaceName).map (OperationKey.mk namespaceName) =
      r.keys.filter fun key => key.namespaceName = namespaceName := by
  have hsame : ∀ key ∈ r.keys.filter fun key => key.namespaceName = namespaceName,
      (OperationKey.mk namespaceName ∘ OperationKey.typeName) key = key := by
    intro key hkey
    have howner : key.namespaceName = namespaceName := by simpa using (List.mem_filter.mp hkey).2
    simp [← howner]
  rw [operationsIn, List.map_map, List.map_congr_left hsame, List.map_id']

/-- The answers of a registry are those that a history of changes gives. -/
structure Reflects (r : OperationRegistry) (history : List (OperationKey × EntryChange)) :
    Prop where
  contains : ∀ key, r.contains key = true ↔
    ∃ factory, lastValue? history key = some (.registration factory)
  create_absent : ∀ key, r.contains key = false →
    r.create key = .error (.unknownOperation key.namespaceName key.typeName)
  create_bare : ∀ key, lastValue? history key = some (.registration none) →
    r.create key = .error (.notConstructible key.namespaceName key.typeName)
  create_factory : ∀ key factory,
    lastValue? history key = some (.registration (some factory)) → r.create key = factory.outcome
  /-- The error tells of an absent entry, unless it is what a factory yields. -/
  create_unknown_iff : ∀ key,
    (∀ factory, lastValue? history key = some (.registration (some factory)) →
      factory.outcome ≠ .error (.unknownOperation key.namespaceName key.typeName)) →
    (r.create key = .error (.unknownOperation key.namespaceName key.typeName) ↔
      r.contains key = false)
  /-- The error tells of an entry without a factory, unless it is what a factory yields. -/
  create_notConstructible_iff : ∀ key,
    (∀ factory, lastValue? history key = some (.registration (some factory)) →
      factory.outcome ≠ .error (.notConstructible key.namespaceName key.typeName)) →
    (r.create key = .error (.notConstructible key.namespaceName key.typeName) ↔
      lastValue? history key = some (.registration none))
  unregister : ∀ key, (r.unregister key).1 = r.contains key ∧
    (r.unregister key).2.contains key = false ∧ (r.unregister key).2.types = r.types
  unregister_other : ∀ key other, other ≠ key →
    (r.unregister key).2.contains other = r.contains other ∧
      (r.unregister key).2.create other = r.create other
  mem_keys : ∀ key, key ∈ r.keys ↔ r.contains key = true
  keys_increase : r.keys.Pairwise OperationKey.Before
  keys_nodup : r.keys.Nodup
  operationsIn : ∀ namespaceName,
    (r.operationsIn namespaceName).map (OperationKey.mk namespaceName) =
      r.keys.filter fun key => key.namespaceName = namespaceName
  size : r.size = r.keys.length

/-- Behind every run a new registry reflects the changes along it. -/
theorem reflects_history (commands : List RegistryCommand) :
    (performAll {} commands).Reflects (history {} commands) where
  contains key := by
    simp only [contains_iff, get?_performAll_new]
  create_absent key habsent := create_eq_iff.mpr (Or.inl ⟨habsent, rfl⟩)
  create_bare key hlast :=
    create_eq_iff.mpr (Or.inr (Or.inl ⟨get?_performAll_new.mpr hlast, rfl⟩))
  create_factory key factory hlast :=
    create_eq_iff.mpr (Or.inr (Or.inr ⟨factory, get?_performAll_new.mpr hlast, rfl⟩))
  create_unknown_iff key hown := by
    rw [create_eq_iff]
    constructor
    · rintro (⟨habsent, -⟩ | ⟨-, ⟨⟩⟩ | ⟨factory, hentry, houtcome⟩)
      · exact habsent
      · exact absurd houtcome (hown factory (get?_performAll_new.mp hentry))
    · exact fun habsent => Or.inl ⟨habsent, rfl⟩
  create_notConstructible_iff key hown := by
    rw [create_eq_iff]
    constructor
    · rintro (⟨-, ⟨⟩⟩ | ⟨hbare, -⟩ | ⟨factory, hentry, houtcome⟩)
      · exact get?_performAll_new.mp hbare
      · exact absurd houtcome (hown factory (get?_performAll_new.mp hentry))
    · exact fun hlast => Or.inr (Or.inl ⟨get?_performAll_new.mpr hlast, rfl⟩)
  unregister key := by
    refine ⟨rfl, ?_, rfl⟩
    rw [contains_eq_false_iff, get?_unregister, if_pos rfl]
  unregister_other key other hother := by
    simp only [OperationRegistry.contains, Table.contains, OperationRegistry.create,
      get?_unregister, if_neg hother, and_self]
  mem_keys key := mem_keys_iff (ordered_performAll ordered_new commands)
  keys_increase := keys_increase (ordered_performAll ordered_new commands)
  keys_nodup := Table.nodup_keys (ordered_performAll ordered_new commands).entries
  operationsIn := map_operationsIn _
  size := by simp [OperationRegistry.size, keys, Table.size, Table.keys]

/-- Of two members of one name the second one stands, and it has no factory. -/
example :
    let smooth : OperationFactory := ⟨.ok ⟨"Smooth", Parameters.new "smooth"⟩⟩
    let r := performAll {} [.registerType ⟨"mesh", "Relax"⟩ { name := "Relax", factory := smooth },
      .importMembers "mesh" [
        ⟨"Smooth", .type { name := "Fair", bases := ["Relax"], factory := smooth }⟩,
        ⟨"Smooth", .type { name := "Relax", bases := ["Operation"] }⟩] "Operation",
      .unregister ⟨"io", "Read"⟩]
    r.keys = [⟨"mesh", "Relax"⟩, ⟨"mesh", "Smooth"⟩] ∧
      r.create ⟨"mesh", "Relax"⟩ = smooth.outcome ∧
      r.create ⟨"mesh", "Smooth"⟩ = .error (.notConstructible "mesh" "Smooth") := by
  decide +kernel

end OperationRegistry

end MethodSynthesis
