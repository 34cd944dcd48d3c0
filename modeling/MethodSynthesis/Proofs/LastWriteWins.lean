import MethodSynthesis.Proofs.ContainerStructure
import MethodSynthesis.Proofs.MethodCandidates

/-!
# Synthesis where the last write wins

Nothing but a nameless item stops synthesis here, and the table answers each name with the last
candidate of that name.
-/

namespace MethodSynthesis

namespace MethodTable

theorem bind_lastWriteWins (table : MethodTable) (method : String) (binding : Binding) :
    table.bind .lastWriteWins method binding = .ok (table.insert method binding) := by
  unfold bind
  split
  · rfl
  · rw [if_neg (by simp)]

theorem bindAll_lastWriteWins (table : MethodTable) (candidates : List (String × Binding)) :
    bindAll .lastWriteWins table candidates = .ok (table.insertAll candidates) := by
  induction candidates generalizing table with
  | nil => rfl
  | cons c rest ih =>
      change table.bind .lastWriteWins c.1 c.2 >>= (bindAll .lastWriteWins · rest) = _
      rw [bind_lastWriteWins]
      exact ih (table.insert c.1 c.2)

end MethodTable

namespace Parameters

variable {p : Parameters} {options : SynthesisOptions} {table : MethodTable} {verbs : NamingVerbs}

theorem synthesize_lastWriteWins_of_named (h : ∀ item ∈ p.items, ¬ item.Nameless) :
    p.synthesize ⟨.lastWriteWins, verbs⟩ = .ok (Table.empty.insertAll (p.candidates verbs)) := by
  rw [synthesize_eq_bindAll _ h]
  exact MethodTable.bindAll_lastWriteWins Table.empty (p.candidates verbs)

theorem synthesize_lastWriteWins_of_nameless {before after : List Item} {item : Item}
    (hitems : p.items = before ++ item :: after) (hbefore : ∀ other ∈ before, ¬ other.Nameless)
    (hitem : item.Nameless) :
    p.synthesize ⟨.lastWriteWins, verbs⟩ = .error (.emptyMethodName item.name) := by
  rw [synthesize_of_nameless _ hitems hbefore hitem, MethodTable.bindAll_lastWriteWins]
  rfl

/-! ## Synthesized tables -/

/-- Every entry targets an item of the container that exposes the facet. -/
theorem exposes_of_get? (hdistinct : p.NamesDistinct) (h : p.synthesize options = .ok table)
    {method : String} {binding : Binding} (hget : table.get? method = some binding) :
    ∃ item, p.find? binding.item = some item ∧ item.Exposes binding.kind := by
  obtain ⟨item, hitem, hcandidate⟩ := mem_candidates_iff.mp (mem_candidates_of_get? h hget)
  obtain ⟨hname, hexposes, -⟩ := Item.mem_candidates_iff.mp hcandidate
  exact ⟨item, hname ▸ find?_of_mem hdistinct hitem, hexposes⟩

theorem eq_method_of_get? (h : p.synthesize options = .ok table) {method : String}
    {binding : Binding} (hget : table.get? method = some binding) :
    ∃ names, MethodNames.derive? binding.item = some names ∧
      method = names.method binding.kind options.verbs := by
  obtain ⟨item, -, hcandidate⟩ := mem_candidates_iff.mp (mem_candidates_of_get? h hget)
  obtain ⟨hname, -, names, hnames, hmethod⟩ := Item.mem_candidates_iff.mp hcandidate
  exact ⟨names, hname ▸ hnames, hmethod⟩

theorem method_unique (h : p.synthesize options = .ok table) {method other : String}
    {binding : Binding} (hmethod : table.get? method = some binding)
    (hother : table.get? other = some binding) : method = other := by
  obtain ⟨names, hnames, rfl⟩ := eq_method_of_get? h hmethod
  obtain ⟨names', hnames', rfl⟩ := eq_method_of_get? h hother
  rw [hnames] at hnames'
  cases hnames'
  rfl

theorem methodFor?_of_get? (h : p.synthesize options = .ok table) {method : String}
    {binding : Binding} (hget : table.get? method = some binding) :
    table.methodFor? binding.item binding.kind = some method := by
  have hordered := ordered_of_synthesize h
  have hmem := (Table.mem_entries_iff hordered method binding).mpr hget
  cases hfound : table.entries.find? (fun entry => entry.2 = ⟨binding.item, binding.kind⟩) with
  | none => simpa using List.find?_eq_none.mp hfound _ hmem
  | some entry =>
      obtain ⟨other, found⟩ := entry
      have hbinding : found = binding := by simpa using List.find?_some hfound
      have hother : table.get? other = some found :=
        (Table.mem_entries_iff hordered other found).mp (List.mem_of_find?_eq_some hfound)
      rw [hbinding] at hother
      simp [MethodTable.methodFor?, hfound, method_unique h hother hget]

theorem size_of_synthesize (h : p.synthesize options = .ok table) :
    table.size = ((p.candidates options.verbs).map Prod.fst).dedup.length := by
  rw [eq_insertAll_of_synthesize h, Table.size_insertAll_empty]

/-- Synthesis fails with the first nameless item alone; a table that it builds answers with the
last candidate of a name, targets facets that are there, and has one entry for each name. -/
theorem synthesize_lastWriteWins_exact (p : Parameters) (verbs : NamingVerbs)
    (distinct : p.NamesDistinct) :
    ((∃ error, p.synthesize ⟨.lastWriteWins, verbs⟩ = .error error) ↔
      ∃ item ∈ p.items, item.Nameless) ∧
    (∀ error, p.synthesize ⟨.lastWriteWins, verbs⟩ = .error error →
      ∃ before item after, p.items = before ++ item :: after ∧ item.Nameless ∧
        (∀ other ∈ before, ¬ other.Nameless) ∧ error = .emptyMethodName item.name) ∧
    (∀ table, p.synthesize ⟨.lastWriteWins, verbs⟩ = .ok table →
      (∀ method binding, table.get? method = some binding ↔
        ∃ before after, p.candidates verbs = before ++ (method, binding) :: after ∧
          ∀ c ∈ after, c.1 ≠ method) ∧
      (∀ method, table.get? method = none ↔ ∀ c ∈ p.candidates verbs, c.1 ≠ method) ∧
      (∀ method binding, table.get? method = some binding →
        ∃ item, p.find? binding.item = some item ∧ item.Exposes binding.kind) ∧
      table.size = ((p.candidates verbs).map Prod.fst).dedup.length ∧
      (∀ method other binding, table.get? method = some binding →
        table.get? other = some binding → method = other)) := by
  have hfails : ∀ {error}, p.synthesize ⟨.lastWriteWins, verbs⟩ = .error error →
      ∃ item ∈ p.items, item.Nameless := by
    intro error herror
    by_contra hnone
    rw [synthesize_lastWriteWins_of_named (by simpa using hnone)] at herror
    cases herror
  refine ⟨⟨?_, ?_⟩, ?_, ?_⟩
  · intro ⟨error, herror⟩
    exact hfails herror
  · intro hnameless
    obtain ⟨before, item, after, hitems, hitem, hbefore⟩ := exists_first_nameless hnameless
    exact ⟨_, synthesize_lastWriteWins_of_nameless hitems hbefore hitem⟩
  · intro error herror
    obtain ⟨before, item, after, hitems, hitem, hbefore⟩ := exists_first_nameless (hfails herror)
    rw [synthesize_lastWriteWins_of_nameless hitems hbefore hitem] at herror
    cases herror
    exact ⟨before, item, after, hitems, hitem, hbefore, rfl⟩
  · intro table htable
    have hsize := size_of_synthesize htable
    refine ⟨fun method binding => ?_, fun method => ?_, fun method binding hget => ?_, hsize,
      fun method other binding hmethod hother => ?_⟩
    · rw [get?_of_synthesize htable, lastValue?_eq_some_iff]
    · rw [get?_of_synthesize htable, lastValue?_eq_none_iff]
    · exact exposes_of_get? distinct htable hget
    · exact method_unique htable hmethod hother

/-- Two items whose names have the same tokens, behind one that has no name and no facet. -/
def twins : Parameters where
  name := "twins"
  items :=
    [.switch (.ofDefinition { name := "--", type := .void }),
      .value ⟨{ name := "max iterations", type := .int }, [], [.null], false⟩,
      .value ⟨{ name := "max-iterations", type := .int }, [], [.null], false⟩]
  version := 3

theorem synthesize_lastWriteWins_exact_twins :
    twins.NamesDistinct ∧ ∃ table, twins.synthesize ⟨.lastWriteWins, {}⟩ = .ok table ∧
      table.get? "maxIterations" = some ⟨"max-iterations", .value⟩ ∧ table.size = 2 := by
  have distinct : twins.NamesDistinct := by decide
  obtain ⟨hfails, -, hexact⟩ := synthesize_lastWriteWins_exact twins {} distinct
  cases htable : twins.synthesize ⟨.lastWriteWins, {}⟩ with
  | error e => exact absurd (hfails.mp ⟨e, htable⟩) (by decide +kernel)
  | ok table =>
      obtain ⟨hlast, -, -, hsize, -⟩ := hexact table htable
      have hcandidates : twins.candidates {} =
          [("setMaxIterations", ⟨"max iterations", .setValue⟩),
            ("maxIterations", ⟨"max iterations", .value⟩),
            ("setMaxIterations", ⟨"max-iterations", .setValue⟩),
            ("maxIterations", ⟨"max-iterations", .value⟩)] := by decide +kernel
      rw [hcandidates] at hlast hsize
      refine ⟨distinct, table, rfl, (hlast _ _).mpr ?_, by rw [hsize]; decide +kernel⟩
      exact ⟨[("setMaxIterations", ⟨"max iterations", .setValue⟩),
        ("maxIterations", ⟨"max iterations", .value⟩),
        ("setMaxIterations", ⟨"max-iterations", .setValue⟩)], [], rfl, by simp⟩

end Parameters

end MethodSynthesis
