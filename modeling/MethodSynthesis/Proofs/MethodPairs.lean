import MethodSynthesis.Proofs.FailFast
import MethodSynthesis.Proofs.RoundTrip
import MethodSynthesis.Proofs.Staleness

/-!
# Setters and getters of one item

The setter and the getter of an item are bound one by one, so another item may take one of the two
names and leave the other. They lead to one item exactly when a later item that takes either name
takes both; then what the setter stores is what the getter reads.
-/

namespace MethodSynthesis

namespace Item

def Derives (verbs : NamingVerbs) (item : Item) (method : String) : Prop :=
  ∃ c ∈ item.candidates verbs, c.1 = method

instance (verbs : NamingVerbs) (item : Item) (method : String) :
    Decidable (item.Derives verbs method) :=
  inferInstanceAs (Decidable (∃ c ∈ item.candidates verbs, c.1 = method))

/-- The item holds values under the setter and the getter that the names give. -/
def HasPair (item : Item) (names : MethodNames) : Prop :=
  item.Exposes .value ∧
    ∃ own, MethodNames.derive? item.name = some own ∧ own.pascal = names.pascal ∧
      own.camel = names.camel

theorem hasPair_iff {item : Item} {names : MethodNames} :
    item.HasPair names ↔
      (names.method .setValue {}, ⟨item.name, .setValue⟩) ∈ item.candidates {} ∧
        (names.method .value {}, ⟨item.name, .value⟩) ∈ item.candidates {} := by
  simp only [mem_candidates_iff, true_and]
  constructor
  · intro ⟨hexposes, own, hown, hpascal, hcamel⟩
    exact ⟨⟨hexposes, own, hown, by simp [MethodNames.method, hpascal]⟩,
      ⟨hexposes, own, hown, hcamel.symm⟩⟩
  · rintro ⟨⟨-, own, hown, hsetter⟩, ⟨hexposes, other, hother, hgetter⟩⟩
    obtain rfl : other = own := Option.some.inj (hother.symm.trans hown)
    have hpascal : names.pascal = other.pascal := by
      simpa [MethodNames.method] using hsetter
    exact ⟨hexposes, other, hother, hpascal.symm, hgetter.symm⟩

end Item

/-! ## The item that a method is bound to -/

namespace Parameters

variable {p : Parameters} {table : MethodTable} {before after : List Item} {last : Item}
  {method : String} {binding : Binding}

theorem exists_get?_of_exposes {options : SynthesisOptions} {item : Item} {names : MethodNames}
    {kind : MethodKind} (built : p.synthesize options = .ok table) (hitem : item ∈ p.items)
    (hkind : item.Exposes kind) (hnames : MethodNames.derive? item.name = some names) :
    ∃ binding, table.get? (names.method kind options.verbs) = some binding := by
  have hcandidate : (names.method kind options.verbs, ⟨item.name, kind⟩) ∈
      p.candidates options.verbs :=
    mem_candidates_iff.mpr
      ⟨item, hitem, Item.mem_candidates_iff.mpr ⟨rfl, hkind, names, hnames, rfl⟩⟩
  rw [get?_of_synthesize built, ← Option.ne_none_iff_exists']
  intro hnone
  exact lastValue?_eq_none_iff.mp hnone _ hcandidate rfl

theorem get?_of_last (built : p.synthesize {} = .ok table)
    (hitems : p.items = before ++ last :: after)
    (hcandidate : (method, binding) ∈ last.candidates {})
    (hafter : ∀ other ∈ after, ¬ other.Derives {} method) : table.get? method = some binding := by
  rw [get?_of_synthesize built, candidates, hitems]
  refine lastValue?_flatMap_of_split (fun other hother c hc heq => ?_) ?_
  · exact hafter other hother ⟨c, hc, heq⟩
  · exact lastValue?_eq_some_of_nodup last.nodup_candidates hcandidate

theorem not_derives_of_get? (hdistinct : p.NamesDistinct) (built : p.synthesize {} = .ok table)
    (hitems : p.items = before ++ last :: after) (hget : table.get? method = some binding)
    (howner : binding.item = last.name) : ∀ other ∈ after, ¬ other.Derives {} method := by
  intro other hother ⟨c, hc, hmethod⟩
  have hsome : lastValue? (after.flatMap (Item.candidates {})) method ≠ none := by
    intro hnone
    exact lastValue?_eq_none_iff.mp hnone c (List.mem_flatMap.mpr ⟨other, hother, hc⟩) hmethod
  obtain ⟨taken, htaken⟩ := Option.ne_none_iff_exists'.mp hsome
  have hbound : taken = binding := by
    rw [get?_of_synthesize built, candidates, hitems, List.append_cons, List.flatMap_append,
      lastValue?_append, htaken] at hget
    exact Option.some.inj hget
  obtain ⟨taker, htaker, hcandidate⟩ := List.mem_flatMap.mp (mem_of_lastValue?_eq_some htaken)
  have hname : taker.name = last.name := by
    rw [← Item.item_eq_name_of_mem_candidates hcandidate, hbound, howner]
  obtain ⟨front, back, hsplit⟩ := List.append_of_mem htaker
  have hlater : p.items = (before ++ last :: front) ++ taker :: back := by
    simp [hitems, hsplit]
  exact ne_of_split hdistinct hlater last (by simp) hname.symm

/-- The two names lead to one item exactly when it has both and no item behind it has either. -/
theorem get?_pair_iff (hdistinct : p.NamesDistinct) (built : p.synthesize {} = .ok table)
    (names : MethodNames) (owner : String) :
    (table.get? (names.method .setValue {}) = some ⟨owner, .setValue⟩ ∧
        table.get? (names.method .value {}) = some ⟨owner, .value⟩) ↔
      ∃ before last after, p.items = before ++ last :: after ∧ last.name = owner ∧
        last.HasPair names ∧
        ∀ other ∈ after, ¬ other.Derives {} (names.method .setValue {}) ∧
          ¬ other.Derives {} (names.method .value {}) := by
  constructor
  · intro ⟨hsetter, hgetter⟩
    obtain ⟨last, hlast, hset⟩ := mem_candidates_iff.mp (mem_candidates_of_get? built hsetter)
    obtain ⟨other, hother, hread⟩ := mem_candidates_iff.mp (mem_candidates_of_get? built hgetter)
    have hname : owner = last.name := Item.item_eq_name_of_mem_candidates hset
    have hsame : other = last := by
      refine List.inj_on_of_nodup_map hdistinct hother hlast ?_
      rw [← hname]
      exact (Item.item_eq_name_of_mem_candidates hread).symm
    subst hsame hname
    obtain ⟨before, after, hitems⟩ := List.append_of_mem hlast
    refine ⟨before, other, after, hitems, rfl, Item.hasPair_iff.mpr ⟨hset, hread⟩, ?_⟩
    intro later hlater
    exact ⟨not_derives_of_get? hdistinct built hitems hsetter rfl later hlater,
      not_derives_of_get? hdistinct built hitems hgetter rfl later hlater⟩
  · rintro ⟨before, last, after, hitems, rfl, hpair, hafter⟩
    obtain ⟨hset, hread⟩ := Item.hasPair_iff.mp hpair
    exact ⟨get?_of_last built hitems hset fun other hother => (hafter other hother).1,
      get?_of_last built hitems hread fun other hother => (hafter other hother).2⟩

end Parameters

/-! ## Reading back -/

namespace EffectiveParameters

variable {api after : EffectiveParameters} {setter getter owner : String}

/-- What the setter accepts the getter returns in its stored form, with and without a position. -/
def ReadsBack (api : EffectiveParameters) (setter getter owner : String) : Prop :=
  (∀ position v answer after, api.call setter [position, v] = (.ok answer, after) →
    ∃ item, api.parameters.find? owner = some (.value item) ∧
      after.call getter [position] = (.ok (item.definition.type.storedForm v), after)) ∧
  (∀ v answer after, api.call setter [v] = (.ok answer, after) →
    ∃ item, api.parameters.find? owner = some (.value item) ∧
      after.call getter [] = (.ok (item.definition.type.storedForm v), after))

theorem call_getter_of_call_setter (hset : api.methods.get? setter = some ⟨owner, .setValue⟩)
    (hread : api.methods.get? getter = some ⟨owner, .value⟩) {position v answer : Value}
    (hcall : api.call setter [position, v] = (.ok answer, after)) :
    ∃ item, api.parameters.find? owner = some (.value item) ∧
      after.call getter [position] = (.ok (item.definition.type.storedForm v), after) := by
  rw [call_of_bound hset] at hcall
  obtain ⟨hanswer, rfl⟩ := Prod.mk.inj hcall
  obtain ⟨item, slot, stored, hfind, hslot, hbound, hadmit, hafter, -⟩ :=
    Binding.setValue_of_invoke (Prod.ext hanswer rfl)
  obtain ⟨rfl, -⟩ := ValueItem.admit?_eq_ok hadmit
  have hvalue := ValueItem.value_withValue_self (item.definition.type.storedForm v) hbound
  refine ⟨item, hfind, ?_⟩
  rw [call_withParameters_of_bound hread, Binding.invoke_value_of_ok hafter hslot hvalue]

/-- The first slot is meant where the position is left out. -/
theorem readsBack_of_bound (hset : api.methods.get? setter = some ⟨owner, .setValue⟩)
    (hread : api.methods.get? getter = some ⟨owner, .value⟩) :
    api.ReadsBack setter getter owner := by
  refine ⟨fun position v answer after hcall => call_getter_of_call_setter hset hread hcall,
    fun v answer after hcall => ?_⟩
  have hfirst : api.call setter [.int 0, v] = (.ok answer, after) := by
    rw [← hcall, call_of_bound hset, call_of_bound hset]
    rfl
  obtain ⟨item, hfind, hvalue⟩ := call_getter_of_call_setter hset hread hfirst
  have hmethods : after.methods = api.methods := by
    rw [call_of_bound hset] at hfirst
    rw [← (Prod.mk.inj hfirst).2]
  rw [← hmethods] at hread
  refine ⟨item, hfind, ?_⟩
  rw [← hvalue, call_of_bound hread, call_of_bound hread]
  rfl

/-- Under the default options the setter and the getter that are derived from the name of a value
item are bound. They are bound to one item exactly when it has both names and no item behind it has
either, and then the getter reads back what the setter stores, whatever becomes of the container. -/
theorem setter_getter_pair_exact (p : Parameters) (api : EffectiveParameters) (item : Item)
    (distinct : p.NamesDistinct) (made : ofParameters p {} = .ok api) (member : item ∈ p.items)
    (bearing : item.Exposes .value) :
    ∃ names, MethodNames.derive? item.name = some names ∧
      (∃ binding, api.methods.get? ("set" ++ names.pascal) = some binding) ∧
      (∃ binding, api.methods.get? names.camel = some binding) ∧
      ∀ owner,
        ((api.methods.get? ("set" ++ names.pascal) = some ⟨owner, .setValue⟩ ∧
            api.methods.get? names.camel = some ⟨owner, .value⟩) ↔
          ∃ before last after, p.items = before ++ last :: after ∧ last.name = owner ∧
            last.HasPair names ∧
            ∀ other ∈ after, ¬ other.Derives {} ("set" ++ names.pascal) ∧
              ¬ other.Derives {} names.camel) ∧
        (api.methods.get? ("set" ++ names.pascal) = some ⟨owner, .setValue⟩ →
          api.methods.get? names.camel = some ⟨owner, .value⟩ →
            ∀ q : Parameters, ({ api with parameters := q } : EffectiveParameters).ReadsBack
              ("set" ++ names.pascal) names.camel owner) := by
  obtain ⟨table, built, rfl⟩ := ofParameters_eq_ok_iff.mp made
  obtain ⟨names, hnames⟩ := Parameters.exists_names_of_exposes built member bearing
  have hset : item.Exposes .setValue := bearing
  refine ⟨names, hnames, Parameters.exists_get?_of_exposes built member hset hnames,
    Parameters.exists_get?_of_exposes built member bearing hnames, fun owner => ⟨?_, ?_⟩⟩
  · exact Parameters.get?_pair_iff distinct built names owner
  · intro hsetter hgetter q
    exact readsBack_of_bound hsetter hgetter

/-- Two integer items whose names differ by a blank between a digit and a letter. -/
def axes : Parameters where
  name := "axes"
  items :=
    [.value ⟨{ name := "3 d", type := .int }, [], [.null], false⟩,
      .value ⟨{ name := "3d", type := .int }, [], [.null], false⟩]
  version := 2

theorem setter_getter_pair_exact_axes :
    axes.NamesDistinct ∧ axes.items[1].Exposes .value ∧ ∃ api, ofParameters axes {} = .ok api ∧
      api.methods.get? "set3D" = some ⟨"3d", .setValue⟩ ∧
      api.methods.get? "3d" = some ⟨"3d", .value⟩ ∧ api.ReadsBack "set3D" "3d" "3d" := by
  have distinct : axes.NamesDistinct := by decide
  have bearing : axes.items[1].Exposes .value := rfl
  obtain ⟨api, made⟩ : ∃ api, ofParameters axes {} = .ok api :=
    Outcomes.exists_of_isOk (by decide +kernel)
  obtain ⟨names, hnames, -, -, hpair⟩ :=
    setter_getter_pair_exact axes api axes.items[1] distinct made (List.getElem_mem _) bearing
  have hderived : MethodNames.derive? axes.items[1].name = some ⟨['3', 'D'], []⟩ := by
    decide +kernel
  obtain rfl := Option.some.inj (hnames.symm.trans hderived)
  obtain ⟨hbound, hreads⟩ := hpair "3d"
  obtain ⟨hsetter, hgetter⟩ := hbound.mpr
    ⟨[axes.items[0]], axes.items[1], [], rfl, rfl, ⟨bearing, _, hderived, rfl, rfl⟩, by simp⟩
  exact ⟨distinct, bearing, api, made, hsetter, hgetter,
    hreads hsetter hgetter api.parameters⟩

/-- The later item takes the setter of the earlier one but not its getter, which does not see what
the setter stores. -/
theorem setter_getter_apart_axes :
    axes.NamesDistinct ∧ axes.items[0].Exposes .value ∧
      MethodNames.derive? axes.items[0].name = some ⟨['3'], [['D']]⟩ ∧
      (⟨['3'], [['D']]⟩ : MethodNames).pascal = "3D" ∧
      (⟨['3'], [['D']]⟩ : MethodNames).camel = "3D" ∧
      ∃ api, ofParameters axes {} = .ok api ∧
        api.methods.get? "set3D" = some ⟨"3d", .setValue⟩ ∧
        api.methods.get? "3D" = some ⟨"3 d", .value⟩ ∧
        (api.call "set3D" [.int 9]).1 = .ok .null ∧
        ((api.call "set3D" [.int 9]).2.call "3D" []).1 = .ok .null := by
  refine ⟨by decide, rfl, by decide +kernel, by decide, by decide,
    ⟨axes, {}, ⟨[("3D", ⟨"3 d", .value⟩), ("3d", ⟨"3d", .value⟩), ("set3D", ⟨"3d", .setValue⟩)]⟩,
      2⟩, ?_⟩
  decide +kernel

end EffectiveParameters

end MethodSynthesis
