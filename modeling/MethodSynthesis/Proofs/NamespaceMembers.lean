import MethodSynthesis.Operation.Namespace
import MethodSynthesis.Proofs.ByteOrder
import MethodSynthesis.Proofs.TableContents
import MethodSynthesis.Proofs.TableSearch

/-!
# Members of a namespace

However members are added, each addition binds one name, and a namespace is the table filled with
these bindings: one member for each name, the last one that was added, in the order of the bytes of
the names. Members are therefore always found by halves, each comes to stand where that search ends,
and a run that searches by halves at every addition ends in the same namespace.
-/

namespace MethodSynthesis

inductive NamespaceCommand where
  | insert (name : String) (value : MemberValue)
  | withType (info : TypeInfo)
  | withNamespace (name : String)

/-- The name that a command binds in a namespace, and what it binds it to. -/
def NamespaceCommand.binding (namespaceName : String) : NamespaceCommand → String × MemberValue
  | insert name value => (name, value)
  | withType info => (info.name, .type info)
  | withNamespace name => (name, .nested (namespaceName ++ "." ++ name))

namespace Namespace

variable {n : Namespace} {name : String}

def perform (n : Namespace) : NamespaceCommand → Namespace
  | .insert name value => n.insert name value
  | .withType info => n.withType info
  | .withNamespace name => n.withNamespace name

def performAll (n : Namespace) (commands : List NamespaceCommand) : Namespace :=
  commands.foldl perform n

/-! ## Runs -/

theorem perform_eq (n : Namespace) (command : NamespaceCommand) :
    n.perform command = n.insert (command.binding n.name).1 (command.binding n.name).2 := by
  cases command <;> rfl

theorem performAll_eq (n : Namespace) (commands : List NamespaceCommand) :
    n.performAll commands =
      ⟨n.name, n.table.insertAll (commands.map (NamespaceCommand.binding n.name))⟩ := by
  induction commands generalizing n with
  | nil => rfl
  | cons command rest ih =>
      have hcons : n.performAll (command :: rest) = (n.perform command).performAll rest := rfl
      rw [hcons, ih, perform_eq]
      rfl

/-! ## Runs by halves -/

/-- Puts the member of a command where the search by halves ends. -/
def performByHalves (n : Namespace) (command : NamespaceCommand) : Namespace :=
  { n with
    table := n.table.insertByHalves (command.binding n.name).1 (command.binding n.name).2 }

def performAllByHalves (n : Namespace) (commands : List NamespaceCommand) : Namespace :=
  commands.foldl performByHalves n

theorem performByHalves_eq (hordered : n.table.Ordered) (command : NamespaceCommand) :
    n.performByHalves command = n.perform command := by
  rw [perform_eq, performByHalves, Table.insertByHalves_eq hordered]
  rfl

theorem ordered_perform (hordered : n.table.Ordered) (command : NamespaceCommand) :
    (n.perform command).table.Ordered := by
  rw [perform_eq]
  exact Table.ordered_insert hordered _ _

-- The search is right in key order only, which every addition keeps.
theorem performAllByHalves_eq (hordered : n.table.Ordered) (commands : List NamespaceCommand) :
    n.performAllByHalves commands = n.performAll commands := by
  induction commands generalizing n with
  | nil => rfl
  | cons command rest ih =>
      rw [performAllByHalves, List.foldl_cons, performByHalves_eq hordered]
      exact ih (ordered_perform hordered command)

/-! ## Members in order -/

theorem members_increase (hordered : n.table.Ordered) :
    n.members.Pairwise fun a b => Text.utf8Bytes a.name < Text.utf8Bytes b.name := by
  apply List.pairwise_map.mpr
  exact hordered.imp fun hlt => Text.compare_eq_lt_iff.mp hlt

theorem mem_members_iff (hordered : n.table.Ordered) (member : NamespaceMember) :
    member ∈ n.members ↔ n.get? member.name = some member.value := by
  rw [get?, ← Table.mem_entries_iff hordered, members, List.mem_map]
  constructor
  · rintro ⟨entry, hentry, rfl⟩
    exact hentry
  · intro hentry
    exact ⟨_, hentry, rfl⟩

/-- A namespace that has one member for each name that was bound, the last one, in byte order. -/
structure IsSortedMap (n : Namespace) (bindings : List (String × MemberValue)) : Prop where
  increase : n.members.Pairwise fun a b => Text.utf8Bytes a.name < Text.utf8Bytes b.name
  get?_eq : ∀ name, n.get? name = lastValue? bindings name
  get?_eq_none : ∀ name, n.get? name = none ↔ name ∉ bindings.map Prod.fst
  mem_members : ∀ member, member ∈ n.members ↔ n.get? member.name = some member.value
  size : n.size = (bindings.map Prod.fst).dedup.length
  /-- A search by halves finds the members. -/
  search : ∀ name, n.get? name =
    (Table.bisect name n.table.entries).value? n.table.entries
  /-- A member comes to stand where the search by halves ends. -/
  place : ∀ name value, (n.insert name value).table.entries =
    (Table.bisect name n.table.entries).put (name, value) n.table.entries

theorem isSortedMap_insertAll (namespaceName : String) (bindings : List (String × MemberValue)) :
    IsSortedMap ⟨namespaceName, Table.empty.insertAll bindings⟩ bindings := by
  have hordered : (Table.empty.insertAll bindings).Ordered :=
    Table.ordered_insertAll Table.ordered_empty bindings
  have hlocates := fun name => Table.locates_bisect name hordered
  refine ⟨members_increase hordered, Table.get?_insertAll_empty bindings, fun name => ?_,
    mem_members_iff hordered, Table.size_insertAll_empty bindings,
    fun name => Table.lookup_of_locates (hlocates name),
    fun name => Table.insertEntry_of_locates (hlocates name)⟩
  rw [get?, Table.get?_insertAll_empty, lastValue?_eq_none_iff]
  constructor
  · intro hnone hmem
    obtain ⟨binding, hbinding, hname⟩ := List.mem_map.mp hmem
    exact hnone binding hbinding hname
  · intro hmem binding hbinding hname
    exact hmem (List.mem_map.mpr ⟨binding, hbinding, hname⟩)

/-- Whatever is added to a new namespace, it has one member for each name, the last one added under
it, in the order of the bytes of the names, and additions that search by halves give this namespace;
so additions that end each name alike end in the same members. -/
theorem members_sorted_exact (namespaceName : String) (commands : List NamespaceCommand) :
    IsSortedMap (performAll ⟨namespaceName, {}⟩ commands)
      (commands.map (NamespaceCommand.binding namespaceName)) ∧
    performAllByHalves ⟨namespaceName, {}⟩ commands = performAll ⟨namespaceName, {}⟩ commands ∧
    ∀ (otherName : String) (others : List NamespaceCommand),
      (∀ name, lastValue? (others.map (NamespaceCommand.binding otherName)) name =
        lastValue? (commands.map (NamespaceCommand.binding namespaceName)) name) →
      (performAll ⟨otherName, {}⟩ others).members =
        (performAll ⟨namespaceName, {}⟩ commands).members := by
  refine ⟨?_, performAllByHalves_eq Table.ordered_empty commands, ?_⟩
  · rw [performAll_eq]
    exact isSortedMap_insertAll namespaceName _
  · intro otherName others hlast
    have htable : Table.empty.insertAll (others.map (NamespaceCommand.binding otherName)) =
        Table.empty.insertAll (commands.map (NamespaceCommand.binding namespaceName)) := by
      apply Table.eq_of_get?_eq (Table.ordered_insertAll Table.ordered_empty _)
        (Table.ordered_insertAll Table.ordered_empty _)
      intro name
      rw [Table.get?_insertAll_empty, Table.get?_insertAll_empty, hlast]
    rw [performAll_eq, performAll_eq]
    exact congrArg (fun table => members ⟨"", table⟩) htable

/-- A value, a nested namespace and a type, and the value once more. -/
def meshCommands : List NamespaceCommand :=
  [.insert "zeta" (.value (.int 1)), .withNamespace "io", .withType { name := "Alpha" },
    .insert "zeta" (.value (.int 2))]

/-- The same members in another order, none of them twice. -/
def copiedCommands : List NamespaceCommand :=
  [.withType { name := "Alpha" }, .insert "zeta" (.value (.int 2)),
    .insert "io" (.nested "mesh.io")]

theorem members_sorted_exact_mesh :
    (∀ name, lastValue? (copiedCommands.map (NamespaceCommand.binding "copy")) name =
        lastValue? (meshCommands.map (NamespaceCommand.binding "mesh")) name) ∧
      (performAll ⟨"copy", {}⟩ copiedCommands).members =
        (performAll ⟨"mesh", {}⟩ meshCommands).members ∧
      (performAll ⟨"mesh", {}⟩ meshCommands).get? "zeta" = some (.value (.int 2)) ∧
      (performAll ⟨"mesh", {}⟩ meshCommands).size = 3 := by
  obtain ⟨hsorted, -, hsame⟩ := members_sorted_exact "mesh" meshCommands
  have hlast : ∀ name, lastValue? (copiedCommands.map (NamespaceCommand.binding "copy")) name =
      lastValue? (meshCommands.map (NamespaceCommand.binding "mesh")) name := by
    intro name
    by_cases hzeta : "zeta" = name
    · subst hzeta
      rfl
    · by_cases hio : "io" = name
      · subst hio
        rfl
      · simp [lastValue?, List.find?_cons, copiedCommands, meshCommands,
          NamespaceCommand.binding, hzeta, hio]
  exact ⟨hlast, hsame "copy" copiedCommands hlast, hsorted.get?_eq "zeta", hsorted.size⟩

end Namespace

end MethodSynthesis
