import Mathlib.Data.List.Flatten
import MethodSynthesis.Proofs.TableContents
import MethodSynthesis.Synthesis.Basic

/-!
# Candidates for method tables

Synthesis binds a sequence of candidates: items by position, the facets of an item in the order
value, optional, discrete, and of each facet the writing method first. An item that exposes a facet
but has no method name stops it. Whatever the policy, a table that is built holds the last
candidate of each name.
-/

namespace MethodSynthesis

/-! ## Facets and kinds -/

namespace Item

def Exposes (item : Item) (kind : MethodKind) : Prop :=
  item.capabilities.has kind.capability = true

def facets (item : Item) : List Capability := Capability.all.filter item.capabilities.has

/-- The item exposes a facet but its name yields no method names. -/
def Nameless (item : Item) : Prop :=
  item.capabilities.isEmpty = false ∧ MethodNames.derive? item.name = none

instance (item : Item) : Decidable item.Nameless :=
  decidable_of_iff (item.capabilities.isEmpty = false ∧
    (MethodNames.derive? item.name).isNone = true) (by simp [Nameless])

theorem mem_methodKinds_iff {item : Item} {kind : MethodKind} :
    kind ∈ item.methodKinds ↔ item.Exposes kind := by
  have hall : ∀ capability, capability ∈ Capability.all := by
    intro capability
    cases capability <;> decide
  simp [methodKinds, Exposes, MethodKind.mem_ofCapability, hall]

theorem methodKinds_of_isEmpty {item : Item} (h : item.capabilities.isEmpty = true) :
    item.methodKinds = [] := by
  rw [List.eq_nil_iff_forall_not_mem]
  intro kind hkind
  have hexposes := mem_methodKinds_iff.mp hkind
  rw [Exposes, (Capabilities.isEmpty_iff _).mp h] at hexposes
  cases hexposes

theorem isEmpty_eq_false_of_exposes {item : Item} {kind : MethodKind} (h : item.Exposes kind) :
    item.capabilities.isEmpty = false := by
  cases hempty : item.capabilities.isEmpty with
  | false => rfl
  | true =>
      rw [Exposes, (Capabilities.isEmpty_iff _).mp hempty] at h
      cases h

theorem length_methodKinds (item : Item) : item.methodKinds.length = 2 * item.facets.length := by
  have hlength : ∀ capability, (MethodKind.ofCapability capability).length = 2 := by
    intro capability
    cases capability <;> rfl
  change (item.facets.flatMap MethodKind.ofCapability).length = 2 * item.facets.length
  simp [List.length_flatMap, hlength, Nat.mul_comm]

theorem nodup_methodKinds (item : Item) : item.methodKinds.Nodup := by
  have hall : (Capability.all.flatMap MethodKind.ofCapability).Nodup := by decide
  have hsublist : item.facets.Sublist Capability.all := List.filter_sublist
  exact hall.sublist (hsublist.flatMap MethodKind.ofCapability)

/-- The methods of an item with what they are bound to, in the order in which they are bound. -/
def candidates (verbs : NamingVerbs) (item : Item) : List (String × Binding) :=
  match MethodNames.derive? item.name with
  | none => []
  | some names => item.methodKinds.map fun kind => (names.method kind verbs, ⟨item.name, kind⟩)

theorem candidates_of_derive? {item : Item} {names : MethodNames} (verbs : NamingVerbs)
    (h : MethodNames.derive? item.name = some names) :
    item.candidates verbs =
      item.methodKinds.map fun kind => (names.method kind verbs, ⟨item.name, kind⟩) := by
  simp [candidates, h]

theorem mem_candidates_iff {verbs : NamingVerbs} {item : Item} {method : String}
    {binding : Binding} :
    (method, binding) ∈ item.candidates verbs ↔
      binding.item = item.name ∧ item.Exposes binding.kind ∧
        ∃ names, MethodNames.derive? item.name = some names ∧
          method = names.method binding.kind verbs := by
  cases h : MethodNames.derive? item.name with
  | none => simp [candidates, h]
  | some names =>
      obtain ⟨owner, kind⟩ := binding
      simp only [candidates_of_derive? verbs h, List.mem_map, Prod.mk.injEq, Binding.mk.injEq,
        mem_methodKinds_iff, Option.some.injEq, exists_eq_left']
      constructor
      · intro h
        obtain ⟨other, hexposes, rfl, rfl, rfl⟩ := h
        exact ⟨rfl, hexposes, rfl⟩
      · intro h
        obtain ⟨rfl, hexposes, rfl⟩ := h
        exact ⟨kind, hexposes, rfl, rfl, rfl⟩

end Item

def Parameters.candidates (p : Parameters) (verbs : NamingVerbs) : List (String × Binding) :=
  p.items.flatMap (Item.candidates verbs)

theorem Parameters.mem_candidates_iff {p : Parameters} {verbs : NamingVerbs}
    {candidate : String × Binding} :
    candidate ∈ p.candidates verbs ↔ ∃ item ∈ p.items, candidate ∈ item.candidates verbs :=
  List.mem_flatMap

/-! ## Binding candidates -/

namespace MethodTable

def bindAll (policy : CollisionPolicy) (table : MethodTable)
    (candidates : List (String × Binding)) : Except SynthesisError MethodTable :=
  candidates.foldlM (fun table c => table.bind policy c.1 c.2) table

theorem bindAll_append (policy : CollisionPolicy) (table : MethodTable)
    (xs ys : List (String × Binding)) :
    bindAll policy table (xs ++ ys) =
      bindAll policy table xs >>= fun table => bindAll policy table ys := by
  simp [bindAll, List.foldlM_append]

theorem bindAll_singleton (policy : CollisionPolicy) (table : MethodTable)
    (c : String × Binding) : bindAll policy table [c] = table.bind policy c.1 c.2 := by
  simp [bindAll]

theorem bind_eq_ok {policy : CollisionPolicy} {table after : MethodTable} {method : String}
    {binding : Binding} (h : table.bind policy method binding = .ok after) :
    after = table.insert method binding := by
  unfold bind at h
  split at h
  · cases h
    rfl
  · split at h
    · cases h
    · cases h
      rfl

theorem bindAll_eq_ok {policy : CollisionPolicy} {table after : MethodTable}
    {candidates : List (String × Binding)} (h : bindAll policy table candidates = .ok after) :
    after = table.insertAll candidates := by
  induction candidates generalizing table with
  | nil =>
      cases h
      rfl
  | cons c rest ih =>
      have happend := bindAll_append policy table [c] rest
      rw [bindAll_singleton, List.singleton_append, h] at happend
      cases hc : table.bind policy c.1 c.2 with
      | error e =>
          rw [hc] at happend
          cases happend
      | ok middle =>
          rw [hc] at happend
          rw [ih happend.symm, bind_eq_ok hc]
          rfl

theorem bindItem_of_nameless {item : Item} (options : SynthesisOptions) (table : MethodTable)
    (h : item.Nameless) : bindItem options table item = .error (.emptyMethodName item.name) := by
  simp [bindItem, h.1, h.2]

theorem bindItem_of_not_nameless {item : Item} (options : SynthesisOptions) (table : MethodTable)
    (h : ¬ item.Nameless) :
    bindItem options table item =
      bindAll options.collision table (item.candidates options.verbs) := by
  cases hempty : item.capabilities.isEmpty with
  | true =>
      have hnone : item.candidates options.verbs = [] := by
        simp only [Item.candidates, Item.methodKinds_of_isEmpty hempty, List.map_nil]
        split <;> rfl
      simp [bindItem, hempty, hnone, bindAll]
      rfl
  | false =>
      cases hnames : MethodNames.derive? item.name with
      | none => exact absurd ⟨hempty, hnames⟩ h
      | some names =>
          simp [bindItem, hempty, hnames, bindAll, Item.candidates_of_derive?, List.foldlM_map]

theorem foldlM_bindItem {items : List Item} (options : SynthesisOptions) (table : MethodTable)
    (h : ∀ item ∈ items, ¬ item.Nameless) :
    items.foldlM (bindItem options) table =
      bindAll options.collision table (items.flatMap (Item.candidates options.verbs)) := by
  induction items generalizing table with
  | nil => rfl
  | cons item rest ih =>
      rw [List.foldlM_cons, List.flatMap_cons, bindAll_append,
        bindItem_of_not_nameless options table (h item List.mem_cons_self)]
      congr 1
      funext table
      exact ih table fun other hother => h other (List.mem_cons_of_mem _ hother)

/-! ## Methods by item and kind -/

variable {table : MethodTable} {name : String} {kind : MethodKind}

theorem get?_of_methodFor? (hordered : table.Ordered) {method : String}
    (h : table.methodFor? name kind = some method) : table.get? method = some ⟨name, kind⟩ := by
  obtain ⟨⟨_, binding⟩, hfound, rfl⟩ := Option.map_eq_some_iff.mp h
  have hbinding : binding = ⟨name, kind⟩ := by simpa using List.find?_some hfound
  subst hbinding
  exact (Table.mem_entries_iff hordered _ _).mp (List.mem_of_find?_eq_some hfound)

theorem methodFor?_eq_none_iff (hordered : table.Ordered) :
    table.methodFor? name kind = none ↔ ∀ method, table.get? method ≠ some ⟨name, kind⟩ := by
  simp only [methodFor?, Option.map_eq_none_iff, List.find?_eq_none, decide_eq_true_eq, Prod.forall]
  constructor
  · intro hnone method hget
    exact hnone method _ ((Table.mem_entries_iff hordered _ _).mpr hget) rfl
  · intro hunbound method binding hmem hbinding
    subst hbinding
    exact hunbound method ((Table.mem_entries_iff hordered _ _).mp hmem)

end MethodTable

/-! ## Synthesis -/

namespace Parameters

theorem synthesize_eq_bindAll {p : Parameters} (options : SynthesisOptions)
    (h : ∀ item ∈ p.items, ¬ item.Nameless) :
    p.synthesize options =
      MethodTable.bindAll options.collision Table.empty (p.candidates options.verbs) :=
  MethodTable.foldlM_bindItem options Table.empty h

/-- The first nameless item is reported unless an earlier item fails to be bound. -/
theorem synthesize_of_nameless {p : Parameters} (options : SynthesisOptions)
    {before after : List Item} {item : Item} (hitems : p.items = before ++ item :: after)
    (hbefore : ∀ other ∈ before, ¬ other.Nameless) (hitem : item.Nameless) :
    p.synthesize options =
      MethodTable.bindAll options.collision Table.empty
          (before.flatMap (Item.candidates options.verbs)) >>=
        fun _ => .error (.emptyMethodName item.name) := by
  rw [synthesize, hitems, List.foldlM_append, MethodTable.foldlM_bindItem options _ hbefore]
  congr 1
  funext table
  rw [List.foldlM_cons, MethodTable.bindItem_of_nameless options table hitem]
  rfl

theorem exists_first_nameless {items : List Item} (h : ∃ item ∈ items, item.Nameless) :
    ∃ before item after, items = before ++ item :: after ∧ item.Nameless ∧
      ∀ other ∈ before, ¬ other.Nameless := by
  have hsome : (items.find? fun item => item.Nameless).isSome := by simpa using h
  obtain ⟨item, hfound⟩ := Option.isSome_iff_exists.mp hsome
  obtain ⟨hitem, before, after, hitems, hbefore⟩ := List.find?_eq_some_iff_append.mp hfound
  exact ⟨before, item, after, hitems, by simpa using hitem,
    fun other hother => by simpa using hbefore other hother⟩

theorem not_nameless_of_synthesize {p : Parameters} {options : SynthesisOptions}
    {table : MethodTable} (h : p.synthesize options = .ok table) :
    ∀ item ∈ p.items, ¬ item.Nameless := by
  intro item hitem hnameless
  obtain ⟨before, first, after, hitems, hfirst, hbefore⟩ :=
    exists_first_nameless ⟨item, hitem, hnameless⟩
  rw [synthesize_of_nameless options hitems hbefore hfirst] at h
  cases hbound : MethodTable.bindAll options.collision Table.empty
      (before.flatMap (Item.candidates options.verbs)) with
  | error e =>
      rw [hbound] at h
      cases h
  | ok middle =>
      rw [hbound] at h
      cases h

theorem exists_names_of_exposes {p : Parameters} {options : SynthesisOptions}
    {table : MethodTable} (h : p.synthesize options = .ok table) {item : Item}
    (hitem : item ∈ p.items) {kind : MethodKind} (hkind : item.Exposes kind) :
    ∃ names, MethodNames.derive? item.name = some names := by
  cases hnames : MethodNames.derive? item.name with
  | some names => exact ⟨names, rfl⟩
  | none =>
      have hnameless : item.Nameless := ⟨Item.isEmpty_eq_false_of_exposes hkind, hnames⟩
      exact absurd hnameless (not_nameless_of_synthesize h item hitem)

theorem eq_insertAll_of_synthesize {p : Parameters} {options : SynthesisOptions}
    {table : MethodTable} (h : p.synthesize options = .ok table) :
    table = Table.empty.insertAll (p.candidates options.verbs) := by
  rw [synthesize_eq_bindAll options (not_nameless_of_synthesize h)] at h
  exact MethodTable.bindAll_eq_ok h

theorem ordered_of_synthesize {p : Parameters} {options : SynthesisOptions} {table : MethodTable}
    (h : p.synthesize options = .ok table) : table.Ordered := by
  rw [eq_insertAll_of_synthesize h]
  exact Table.ordered_insertAll Table.ordered_empty _

theorem get?_of_synthesize {p : Parameters} {options : SynthesisOptions} {table : MethodTable}
    (h : p.synthesize options = .ok table) (method : String) :
    table.get? method = lastValue? (p.candidates options.verbs) method := by
  rw [eq_insertAll_of_synthesize h, Table.get?_insertAll_empty]

theorem mem_candidates_of_get? {p : Parameters} {options : SynthesisOptions} {table : MethodTable}
    (h : p.synthesize options = .ok table) {method : String} {binding : Binding}
    (hget : table.get? method = some binding) : (method, binding) ∈ p.candidates options.verbs := by
  rw [get?_of_synthesize h] at hget
  exact mem_of_lastValue?_eq_some hget

end Parameters

end MethodSynthesis
