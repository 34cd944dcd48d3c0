import MethodSynthesis.Proofs.FailFast

/-!
# Methods lost within an item

Refusing collisions keeps the methods of different items apart, whatever the verbs. Under verbs that
give two kinds of one item a common name, the kind that is bound later takes it, and the earlier
kind is out of reach. Nothing else is lost.
-/

namespace MethodSynthesis

namespace Item

variable {verbs : NamingVerbs} {item : Item} {names : MethodNames} {kind : MethodKind}

/-- No kind that the item binds later has the name of the kind. -/
def KeepsMethod (verbs : NamingVerbs) (item : Item) (names : MethodNames) (kind : MethodKind) :
    Prop :=
  ∃ before after, item.methodKinds = before ++ kind :: after ∧
    ∀ other ∈ after, names.method other verbs ≠ names.method kind verbs

def MethodsDiffer (verbs : NamingVerbs) (item : Item) (names : MethodNames) : Prop :=
  ∀ kind other, item.Exposes kind → item.Exposes other →
    names.method kind verbs = names.method other verbs → kind = other

theorem lastValue?_candidates_eq_some_iff (hnames : MethodNames.derive? item.name = some names) :
    lastValue? (item.candidates verbs) (names.method kind verbs) = some ⟨item.name, kind⟩ ↔
      item.KeepsMethod verbs names kind := by
  rw [candidates_of_derive? verbs hnames, lastValue?_eq_some_iff]
  constructor
  · intro ⟨before, after, hsplit, hafter⟩
    obtain ⟨front, back, hkinds, -, hback⟩ := List.map_eq_append_iff.mp hsplit
    obtain ⟨found, rest, rfl, hfound, hrest⟩ := List.map_eq_cons_iff.mp hback
    obtain ⟨-, hbinding⟩ := Prod.mk.inj hfound
    obtain rfl : found = kind := (Binding.mk.inj hbinding).2
    refine ⟨front, rest, hkinds, fun other hother => ?_⟩
    rw [← hrest] at hafter
    exact hafter _ (List.mem_map_of_mem hother)
  · intro ⟨before, after, hkinds, hafter⟩
    rw [hkinds, List.map_append, List.map_cons]
    refine ⟨_, _, rfl, fun c hc => ?_⟩
    obtain ⟨other, hother, rfl⟩ := List.mem_map.mp hc
    exact hafter other hother

theorem exists_lastValue?_candidates (verbs : NamingVerbs)
    (hnames : MethodNames.derive? item.name = some names) (hkind : item.Exposes kind) :
    ∃ owner, item.Exposes owner ∧
      lastValue? (item.candidates verbs) (names.method kind verbs) = some ⟨item.name, owner⟩ := by
  have hcandidate : (names.method kind verbs, ⟨item.name, kind⟩) ∈ item.candidates verbs :=
    mem_candidates_iff.mpr ⟨rfl, hkind, names, hnames, rfl⟩
  cases hlast : lastValue? (item.candidates verbs) (names.method kind verbs) with
  | none => exact absurd rfl (lastValue?_eq_none_iff.mp hlast _ hcandidate)
  | some binding =>
      obtain ⟨hitem, howner, -⟩ := mem_candidates_iff.mp (mem_of_lastValue?_eq_some hlast)
      obtain ⟨name, owner⟩ := binding
      subst hitem
      exact ⟨owner, howner, rfl⟩

theorem keepsMethod_of_methodsDiffer (h : item.MethodsDiffer verbs names)
    (hkind : item.Exposes kind) : item.KeepsMethod verbs names kind := by
  obtain ⟨before, after, hkinds⟩ := List.append_of_mem (mem_methodKinds_iff.mpr hkind)
  refine ⟨before, after, hkinds, fun other hother hsame => ?_⟩
  have hnodup := item.nodup_methodKinds
  rw [hkinds] at hnodup
  have hfresh := (List.nodup_cons.mp (List.nodup_append.mp hnodup).2.1).1
  have hexposed : item.Exposes other := by
    refine mem_methodKinds_iff.mp ?_
    rw [hkinds]
    exact List.mem_append_right _ (List.mem_cons_of_mem _ hother)
  exact hfresh (h other kind hexposed hkind hsame ▸ hother)

end Item

namespace Parameters

variable {p : Parameters} {verbs : NamingVerbs} {table : MethodTable} {item : Item}
  {names : MethodNames} {kind : MethodKind}

theorem get?_of_lastValue?_candidates (hdistinct : p.NamesDistinct)
    (built : p.synthesize ⟨.failFast, verbs⟩ = .ok table) (hitem : item ∈ p.items)
    {method : String} {binding : Binding}
    (hlast : lastValue? (item.candidates verbs) method = some binding) :
    table.get? method = some binding := by
  have hnamed := not_nameless_of_synthesize built
  have hapart := methodsApart_of_synthesize hdistinct hnamed built
  rw [get?_of_synthesize built]
  exact (lastValue?_candidates_iff hdistinct hapart).mpr ⟨item, hitem, hlast⟩

theorem methodFor?_eq_some_iff_keepsMethod (hdistinct : p.NamesDistinct)
    (built : p.synthesize ⟨.failFast, verbs⟩ = .ok table) (hitem : item ∈ p.items)
    (hkind : item.Exposes kind) (hnames : MethodNames.derive? item.name = some names)
    (method : String) :
    table.methodFor? item.name kind = some method ↔
      method = names.method kind verbs ∧ item.KeepsMethod verbs names kind := by
  constructor
  · intro hmethod
    have hget := MethodTable.get?_of_methodFor? (ordered_of_synthesize built) hmethod
    obtain ⟨names', hnames', rfl⟩ := eq_method_of_get? built hget
    obtain rfl : names' = names := Option.some.inj (hnames'.symm.trans hnames)
    refine ⟨rfl, Item.lastValue?_candidates_eq_some_iff hnames |>.mp ?_⟩
    obtain ⟨owner, -, hlast⟩ := Item.exists_lastValue?_candidates verbs hnames hkind
    have howner := get?_of_lastValue?_candidates hdistinct built hitem hlast
    rw [hlast, ← howner]
    exact hget
  · rintro ⟨rfl, hkeeps⟩
    have hlast := (Item.lastValue?_candidates_eq_some_iff hnames).mpr hkeeps
    exact methodFor?_of_get? built (get?_of_lastValue?_candidates hdistinct built hitem hlast)

/-- Synthesis that refuses collisions binds every method of every facet to its item; a kind is found
again exactly when the item binds no later kind under its name, and so all kinds are found exactly
when the verbs tell the kinds of each item apart. -/
theorem methodFor?_failFast_exact (p : Parameters) (verbs : NamingVerbs) (table : MethodTable)
    (distinct : p.NamesDistinct) (built : p.synthesize ⟨.failFast, verbs⟩ = .ok table) :
    (∀ item ∈ p.items, ∀ kind, item.Exposes kind →
      ∃ names, MethodNames.derive? item.name = some names ∧
        (∃ owner, item.Exposes owner ∧
          table.get? (names.method kind verbs) = some ⟨item.name, owner⟩) ∧
        ∀ method, table.methodFor? item.name kind = some method ↔
          method = names.method kind verbs ∧ item.KeepsMethod verbs names kind) ∧
    ((∀ item ∈ p.items, ∀ kind, item.Exposes kind →
        ∃ method, table.methodFor? item.name kind = some method) ↔
      ∀ item ∈ p.items, ∀ names, MethodNames.derive? item.name = some names →
        item.MethodsDiffer verbs names) := by
  refine ⟨fun item hitem kind hkind => ?_, fun hfound => ?_, fun hdiffer => ?_⟩
  · obtain ⟨names, hnames⟩ := exists_names_of_exposes built hitem hkind
    obtain ⟨owner, howner, hlast⟩ := Item.exists_lastValue?_candidates verbs hnames hkind
    have hget := get?_of_lastValue?_candidates distinct built hitem hlast
    exact ⟨names, hnames, ⟨owner, howner, hget⟩,
      methodFor?_eq_some_iff_keepsMethod distinct built hitem hkind hnames⟩
  · -- Two kinds of one name would both be bound to it.
    intro item hitem names hnames kind other hkind hother hsame
    have hordered := ordered_of_synthesize built
    obtain ⟨method, hmethod⟩ := hfound item hitem kind hkind
    obtain ⟨method', hmethod'⟩ := hfound item hitem other hother
    have hget := MethodTable.get?_of_methodFor? hordered hmethod
    have hget' := MethodTable.get?_of_methodFor? hordered hmethod'
    obtain ⟨rfl, -⟩ :=
      (methodFor?_eq_some_iff_keepsMethod distinct built hitem hkind hnames _).mp hmethod
    obtain ⟨rfl, -⟩ :=
      (methodFor?_eq_some_iff_keepsMethod distinct built hitem hother hnames _).mp hmethod'
    rw [hsame, hget'] at hget
    exact (Binding.mk.inj (Option.some.inj hget)).2.symm
  · intro item hitem kind hkind
    obtain ⟨names, hnames⟩ := exists_names_of_exposes built hitem hkind
    have hkeeps := Item.keepsMethod_of_methodsDiffer (hdiffer item hitem names hnames) hkind
    exact ⟨_, (methodFor?_eq_some_iff_keepsMethod distinct built hitem hkind hnames _).mpr
      ⟨rfl, hkeeps⟩⟩

def dial : Parameters where
  name := "dial"
  items :=
    [.value ⟨{ name := "mode", type := .int, discrete := [⟨"off", .int 0⟩, ⟨"on", .int 1⟩] },
      [.int 0, .int 1], [.null], false⟩]
  version := 1

/-- Without a suffix for choices, the setter of choices has the name of the setter of values. -/
theorem methodFor?_failFast_exact_dial :
    dial.NamesDistinct ∧ ∃ table,
      dial.synthesize ⟨.failFast, { index := "" }⟩ = .ok table ∧
        table.methodFor? "mode" .setDiscreteIndex = some "setMode" := by
  have distinct : dial.NamesDistinct := by decide
  obtain ⟨table, built⟩ :
      ∃ table, dial.synthesize ⟨.failFast, { index := "" }⟩ = .ok table :=
    Outcomes.exists_of_isOk (by decide +kernel)
  obtain ⟨hkinds, -⟩ := methodFor?_failFast_exact dial { index := "" } table distinct built
  obtain ⟨names, hnames, -, hfound⟩ :=
    hkinds dial.items[0] (List.getElem_mem _) .setDiscreteIndex rfl
  have hderived : MethodNames.derive? dial.items[0].name = some ⟨"Mode".toList, []⟩ := by
    decide +kernel
  obtain rfl := Option.some.inj (hnames.symm.trans hderived)
  exact ⟨distinct, table, built, (hfound _).mpr
    ⟨by decide, [.setValue, .value], [.discreteIndex], by decide, by decide⟩⟩

/-- The setter of values is lost although collisions are refused. -/
theorem setValue_lost_dial :
    dial.NamesDistinct ∧ dial.items[0].Exposes .setValue ∧ ∃ table,
      dial.synthesize ⟨.failFast, { index := "" }⟩ = .ok table ∧
        table.methodFor? "mode" .setValue = none := by
  refine ⟨by decide, rfl, ⟨[("mode", ⟨"mode", .discreteIndex⟩),
    ("setMode", ⟨"mode", .setDiscreteIndex⟩)]⟩, ?_⟩
  decide +kernel

end Parameters

end MethodSynthesis
