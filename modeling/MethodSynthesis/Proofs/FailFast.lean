import Mathlib.Data.List.Induction
import MethodSynthesis.Proofs.LastWriteWins
import MethodSynthesis.Proofs.MethodNameLengths

/-!
# Synthesis that refuses collisions

A candidate collides when an earlier candidate of another item has its name. Synthesis reports the
first collision and succeeds without one; then no two items share a name, and neither the policy
nor the order of the items matters to the table.
-/

namespace MethodSynthesis

/-- Candidates of a common name belong to a common item. -/
def Compatible (a b : String × Binding) : Prop := a.1 = b.1 → a.2.item = b.2.item

instance (a b : String × Binding) : Decidable (Compatible a b) :=
  inferInstanceAs (Decidable (_ → _))

theorem compatible_of_pairwise {candidates : List (String × Binding)}
    (h : candidates.Pairwise Compatible) {a b : String × Binding} (ha : a ∈ candidates)
    (hb : b ∈ candidates) : Compatible a b := by
  have hflip : candidates.Pairwise (flip Compatible) :=
    h.imp fun hxy hname => (hxy hname.symm).symm
  exact List.Pairwise.forall_of_forall_of_flip (fun _ _ _ => rfl) h hflip ha hb

namespace MethodTable

variable {before candidates : List (String × Binding)} {c owner : String × Binding}

/-! ## The loop over the candidates -/

theorem bind_failFast_of_compatible (h : ∀ d ∈ before, Compatible d c) :
    bind .failFast (Table.empty.insertAll before) c.1 c.2 =
      .ok (Table.empty.insertAll (before ++ [c])) := by
  rw [Table.insertAll_append_singleton]
  unfold bind
  rw [Table.get?_insertAll_empty]
  cases hlast : lastValue? before c.1 with
  | none => rfl
  | some existing =>
      have hitem : existing.item = c.2.item := h _ (mem_of_lastValue?_eq_some hlast) rfl
      simp [hitem]

theorem bind_failFast_of_collision (hbefore : before.Pairwise Compatible) (howner : owner ∈ before)
    (hname : owner.1 = c.1) (hitem : owner.2.item ≠ c.2.item) :
    bind .failFast (Table.empty.insertAll before) c.1 c.2 =
      .error (.nameCollision c.1 owner.2.item c.2.item) := by
  unfold bind
  rw [Table.get?_insertAll_empty]
  cases hlast : lastValue? before c.1 with
  | none => exact absurd hname (lastValue?_eq_none_iff.mp hlast owner howner)
  | some existing =>
      have hsame : existing.item = owner.2.item :=
        compatible_of_pairwise hbefore (mem_of_lastValue?_eq_some hlast) howner hname.symm
      simp [hsame, hitem]

/-- The loop keeps the table filled with the candidates so far while these are compatible. -/
theorem bindAll_failFast_of_pairwise (h : candidates.Pairwise Compatible) :
    bindAll .failFast Table.empty candidates = .ok (Table.empty.insertAll candidates) := by
  induction candidates using List.reverseRec with
  | nil => rfl
  | append_singleton before c ih =>
      obtain ⟨hbefore, -, hc⟩ := List.pairwise_append.mp h
      rw [bindAll_append, ih hbefore]
      change bindAll .failFast (Table.empty.insertAll before) [c] = _
      rw [bindAll_singleton]
      exact bind_failFast_of_compatible fun d hd => hc d hd c List.mem_cons_self

theorem bindAll_failFast_of_collision (after : List (String × Binding))
    (hbefore : before.Pairwise Compatible) (howner : owner ∈ before) (hname : owner.1 = c.1)
    (hitem : owner.2.item ≠ c.2.item) :
    bindAll .failFast Table.empty (before ++ c :: after) =
      .error (.nameCollision c.1 owner.2.item c.2.item) := by
  rw [bindAll_append, bindAll_failFast_of_pairwise hbefore]
  change bindAll .failFast (Table.empty.insertAll before) ([c] ++ after) = _
  rw [bindAll_append, bindAll_singleton, bind_failFast_of_collision hbefore howner hname hitem]
  rfl

theorem exists_first_collision (h : ¬ candidates.Pairwise Compatible) :
    ∃ before method binding after owner, candidates = before ++ (method, binding) :: after ∧
      before.Pairwise Compatible ∧ (method, owner) ∈ before ∧ owner.item ≠ binding.item := by
  induction candidates using List.reverseRec with
  | nil => exact absurd List.Pairwise.nil h
  | append_singleton before c ih =>
      by_cases hbefore : before.Pairwise Compatible
      · have hcollides : ∃ d ∈ before, ¬ Compatible d c := by
          by_contra hnone
          refine h (List.pairwise_append.mpr ⟨hbefore, List.pairwise_singleton _ _, ?_⟩)
          intro d hd x hx
          rw [List.mem_singleton.mp hx]
          by_contra hdc
          exact hnone ⟨d, hd, hdc⟩
        obtain ⟨⟨method, owner⟩, hd, hdc⟩ := hcollides
        obtain ⟨method', binding⟩ := c
        obtain ⟨rfl, hitem⟩ := Classical.not_imp.mp hdc
        exact ⟨before, _, binding, [], owner, rfl, hbefore, hd, hitem⟩
      · obtain ⟨front, method, binding, back, owner, rfl, hfront, howner, hitem⟩ := ih hbefore
        exact ⟨front, method, binding, back ++ [c], owner, by simp, hfront, howner, hitem⟩

end MethodTable

/-! ## Items that share a method -/

namespace Item

/-- Two items derive a common method name for kinds of facets that they expose. -/
def SharesMethod (verbs : NamingVerbs) (a b : Item) : Prop :=
  ∃ kind other names names', a.Exposes kind ∧ b.Exposes other ∧
    MethodNames.derive? a.name = some names ∧ MethodNames.derive? b.name = some names' ∧
    names.method kind verbs = names'.method other verbs

theorem sharesMethod_iff {verbs : NamingVerbs} {a b : Item} :
    a.SharesMethod verbs b ↔
      ∃ x ∈ a.candidates verbs, ∃ y ∈ b.candidates verbs, x.1 = y.1 := by
  constructor
  · intro ⟨kind, other, names, names', hkind, hother, hnames, hnames', heq⟩
    refine ⟨(names.method kind verbs, ⟨a.name, kind⟩), ?_,
      (names'.method other verbs, ⟨b.name, other⟩), ?_, heq⟩
    · exact mem_candidates_iff.mpr ⟨rfl, hkind, names, hnames, rfl⟩
    · exact mem_candidates_iff.mpr ⟨rfl, hother, names', hnames', rfl⟩
  · intro ⟨⟨x, binding⟩, hx, ⟨y, binding'⟩, hy, heq⟩
    obtain ⟨-, hkind, names, hnames, rfl⟩ := mem_candidates_iff.mp hx
    obtain ⟨-, hother, names', hnames', rfl⟩ := mem_candidates_iff.mp hy
    exact ⟨_, _, names, names', hkind, hother, hnames, hnames', heq⟩

instance (verbs : NamingVerbs) (a b : Item) : Decidable (a.SharesMethod verbs b) :=
  decidable_of_iff _ sharesMethod_iff.symm

theorem nodup_candidates (item : Item) : ((item.candidates {}).map Prod.fst).Nodup := by
  cases hnames : MethodNames.derive? item.name with
  | none => simp [candidates, hnames]
  | some names =>
      rw [candidates_of_derive? _ hnames]
      refine List.pairwise_map.mpr (List.pairwise_map.mpr (item.nodup_methodKinds.imp ?_))
      intro kind other hne heq
      exact hne (MethodNames.method_injective heq)

theorem item_eq_name_of_mem_candidates {verbs : NamingVerbs} {item : Item}
    {c : String × Binding} (h : c ∈ item.candidates verbs) : c.2.item = item.name :=
  (mem_candidates_iff.mp h).1

end Item

namespace Parameters

variable {p q : Parameters} {verbs : NamingVerbs} {table : MethodTable}

def MethodsApart (verbs : NamingVerbs) (p : Parameters) : Prop :=
  ∀ a ∈ p.items, ∀ b ∈ p.items, a ≠ b → ¬ a.SharesMethod verbs b

theorem pairwise_of_methodsApart (hdistinct : p.NamesDistinct) (h : p.MethodsApart verbs) :
    p.items.Pairwise fun a b =>
      ∀ x ∈ a.candidates verbs, ∀ y ∈ b.candidates verbs, x.1 ≠ y.1 := by
  refine (List.Nodup.of_map Item.name hdistinct).pairwise_of_forall_ne ?_
  intro a ha b hb hne x hx y hy heq
  exact h a ha b hb hne (Item.sharesMethod_iff.mpr ⟨x, hx, y, hy, heq⟩)

theorem candidates_pairwise_compatible_iff (hdistinct : p.NamesDistinct) :
    (p.candidates verbs).Pairwise Compatible ↔ p.MethodsApart verbs := by
  constructor
  · intro hcompatible a ha b hb hne hshares
    obtain ⟨x, hx, y, hy, heq⟩ := Item.sharesMethod_iff.mp hshares
    have hitem : x.2.item = y.2.item :=
      compatible_of_pairwise hcompatible (mem_candidates_iff.mpr ⟨a, ha, hx⟩)
        (mem_candidates_iff.mpr ⟨b, hb, hy⟩) heq
    rw [Item.item_eq_name_of_mem_candidates hx, Item.item_eq_name_of_mem_candidates hy] at hitem
    exact hne (List.inj_on_of_nodup_map hdistinct ha hb hitem)
  · intro hapart
    refine List.pairwise_flatMap.mpr ⟨fun item _ => ?_, ?_⟩
    · refine List.pairwise_of_forall_mem_list fun x hx y hy _ => ?_
      rw [Item.item_eq_name_of_mem_candidates hx, Item.item_eq_name_of_mem_candidates hy]
    · refine (pairwise_of_methodsApart hdistinct hapart).imp ?_
      intro a b hab x hx y hy heq
      exact absurd heq (hab x hx y hy)

/-! ## Outcomes of synthesis -/

theorem synthesize_failFast_of_methodsApart (hdistinct : p.NamesDistinct)
    (hnamed : ∀ item ∈ p.items, ¬ item.Nameless) (h : p.MethodsApart verbs) :
    p.synthesize ⟨.failFast, verbs⟩ = .ok (Table.empty.insertAll (p.candidates verbs)) := by
  rw [synthesize_eq_bindAll _ hnamed]
  exact MethodTable.bindAll_failFast_of_pairwise
    ((candidates_pairwise_compatible_iff hdistinct).mpr h)

/-- Items that share a method are refused at the first candidate that collides. -/
theorem synthesize_failFast_of_not_methodsApart (hdistinct : p.NamesDistinct)
    (hnamed : ∀ item ∈ p.items, ¬ item.Nameless) (h : ¬ p.MethodsApart verbs) :
    ∃ before method binding after owner,
      p.candidates verbs = before ++ (method, binding) :: after ∧ before.Pairwise Compatible ∧
        (method, owner) ∈ before ∧ owner.item ≠ binding.item ∧
        p.synthesize ⟨.failFast, verbs⟩ =
          .error (.nameCollision method owner.item binding.item) := by
  rw [← candidates_pairwise_compatible_iff hdistinct] at h
  obtain ⟨before, method, binding, after, owner, hsplit, hbefore, howner, hitem⟩ :=
    MethodTable.exists_first_collision h
  refine ⟨before, method, binding, after, owner, hsplit, hbefore, howner, hitem, ?_⟩
  rw [synthesize_eq_bindAll _ hnamed, hsplit]
  exact MethodTable.bindAll_failFast_of_collision after hbefore howner rfl hitem

theorem methodsApart_of_synthesize (hdistinct : p.NamesDistinct)
    (hnamed : ∀ item ∈ p.items, ¬ item.Nameless)
    (h : p.synthesize ⟨.failFast, verbs⟩ = .ok table) : p.MethodsApart verbs := by
  by_contra hshared
  obtain ⟨_, _, _, _, _, -, -, -, -, herror⟩ :=
    synthesize_failFast_of_not_methodsApart hdistinct hnamed hshared
  rw [h] at herror
  cases herror

/-! ## The order of the items -/

theorem namesDistinct_of_perm (hdistinct : p.NamesDistinct) (hperm : q.items.Perm p.items) :
    q.NamesDistinct :=
  (hperm.map Item.name).nodup_iff.mpr hdistinct

theorem methodsApart_of_perm (h : p.MethodsApart verbs) (hperm : q.items.Perm p.items) :
    q.MethodsApart verbs :=
  fun a ha b hb => h a (hperm.mem_iff.mp ha) b (hperm.mem_iff.mp hb)

theorem lastValue?_candidates_iff (hdistinct : p.NamesDistinct) (h : p.MethodsApart verbs)
    {method : String} {binding : Binding} :
    lastValue? (p.candidates verbs) method = some binding ↔
      ∃ item ∈ p.items, lastValue? (item.candidates verbs) method = some binding :=
  lastValue?_flatMap (pairwise_of_methodsApart hdistinct h)

theorem insertAll_candidates_of_perm (hdistinct : p.NamesDistinct) (h : p.MethodsApart verbs)
    (hperm : q.items.Perm p.items) :
    Table.empty.insertAll (q.candidates verbs) = Table.empty.insertAll (p.candidates verbs) := by
  refine Table.eq_of_get?_eq (Table.ordered_insertAll Table.ordered_empty _)
    (Table.ordered_insertAll Table.ordered_empty _) fun method => ?_
  rw [Table.get?_insertAll_empty, Table.get?_insertAll_empty]
  refine Option.ext fun binding => ?_
  rw [lastValue?_candidates_iff hdistinct h,
    lastValue?_candidates_iff (namesDistinct_of_perm hdistinct hperm)
      (methodsApart_of_perm h hperm)]
  simp only [hperm.mem_iff]

/-! ## The default verbs -/

theorem nodup_candidates (hdistinct : p.NamesDistinct) (h : p.MethodsApart {}) :
    ((p.candidates {}).map Prod.fst).Nodup :=
  List.pairwise_map.mpr (List.pairwise_flatMap.mpr
    ⟨fun item _ => List.pairwise_map.mp item.nodup_candidates,
      pairwise_of_methodsApart hdistinct h⟩)

theorem length_candidates_of_item (verbs : NamingVerbs) {item : Item} (h : ¬ item.Nameless) :
    (item.candidates verbs).length = 2 * item.facets.length := by
  rw [← item.length_methodKinds]
  cases hnames : MethodNames.derive? item.name with
  | some names => simp [Item.candidates_of_derive? _ hnames]
  | none =>
      have hempty : item.capabilities.isEmpty = true := by
        by_contra hfacets
        exact h ⟨by simpa using hfacets, hnames⟩
      simp [Item.candidates, hnames, Item.methodKinds_of_isEmpty hempty]

theorem length_candidates (verbs : NamingVerbs) (hnamed : ∀ item ∈ p.items, ¬ item.Nameless) :
    (p.candidates verbs).length = 2 * (p.items.flatMap Item.facets).length := by
  have hlength : p.items.map (fun item => (item.candidates verbs).length) =
      p.items.map fun item => 2 * item.facets.length :=
    List.map_congr_left fun item hitem => length_candidates_of_item verbs (hnamed item hitem)
  rw [candidates, List.length_flatMap, List.length_flatMap, hlength]
  induction p.items with
  | nil => rfl
  | cons item rest ih =>
      simp only [List.map_cons, List.sum_cons, ih]
      omega

theorem methodFor?_of_synthesize (hdistinct : p.NamesDistinct)
    (h : p.synthesize .strict = .ok table) {item : Item} (hitem : item ∈ p.items)
    {kind : MethodKind} (hkind : item.Exposes kind) :
    ∃ names, MethodNames.derive? item.name = some names ∧
      table.methodFor? item.name kind = some (names.method kind {}) := by
  have hnamed := not_nameless_of_synthesize h
  obtain ⟨names, hnames⟩ := exists_names_of_exposes h hitem hkind
  have hcandidate : (names.method kind {}, ⟨item.name, kind⟩) ∈ p.candidates {} :=
    mem_candidates_iff.mpr
      ⟨item, hitem, Item.mem_candidates_iff.mpr ⟨rfl, hkind, names, hnames, rfl⟩⟩
  have hnodup := nodup_candidates hdistinct (methodsApart_of_synthesize hdistinct hnamed h)
  have hget : table.get? (names.method kind {}) = some ⟨item.name, kind⟩ := by
    rw [get?_of_synthesize h]
    exact lastValue?_eq_some_of_nodup hnodup hcandidate
  exact ⟨names, hnames, methodFor?_of_get? h hget⟩

/-- Synthesis that refuses collisions fails exactly where two items share a method, with the first
candidate that collides; a table that it builds is the one that the last write gives, in any order
of the items, and under the default verbs nothing is lost. -/
theorem synthesize_failFast_exact (p : Parameters) (verbs : NamingVerbs)
    (distinct : p.NamesDistinct) (named : ∀ item ∈ p.items, ¬ item.Nameless) :
    ((∃ error, p.synthesize ⟨.failFast, verbs⟩ = .error error) ↔
      ∃ a ∈ p.items, ∃ b ∈ p.items, a ≠ b ∧ a.SharesMethod verbs b) ∧
    (∀ error, p.synthesize ⟨.failFast, verbs⟩ = .error error →
      ∃ before method binding after owner,
        p.candidates verbs = before ++ (method, binding) :: after ∧ before.Pairwise Compatible ∧
          (method, owner) ∈ before ∧ owner.item ≠ binding.item ∧
          error = .nameCollision method owner.item binding.item) ∧
    (∀ table, p.synthesize ⟨.failFast, verbs⟩ = .ok table →
      p.synthesize ⟨.lastWriteWins, verbs⟩ = .ok table ∧
        ∀ q : Parameters, q.items.Perm p.items → q.synthesize ⟨.failFast, verbs⟩ = .ok table) ∧
    (∀ table, p.synthesize .strict = .ok table →
      table.size = 2 * (p.items.flatMap Item.facets).length ∧
        ∀ item ∈ p.items, ∀ kind, item.Exposes kind →
          ∃ names, MethodNames.derive? item.name = some names ∧
            table.methodFor? item.name kind = some (names.method kind {})) := by
  have hfails : ∀ {error}, p.synthesize ⟨.failFast, verbs⟩ = .error error →
      ¬ p.MethodsApart verbs := by
    intro error herror hapart
    rw [synthesize_failFast_of_methodsApart distinct named hapart] at herror
    cases herror
  refine ⟨⟨?_, ?_⟩, ?_, ?_, ?_⟩
  · intro ⟨error, herror⟩
    simpa [MethodsApart] using hfails herror
  · intro ⟨a, ha, b, hb, hne, hshares⟩
    obtain ⟨_, _, _, _, _, -, -, -, -, herror⟩ :=
      synthesize_failFast_of_not_methodsApart distinct named
        fun hapart => hapart a ha b hb hne hshares
    exact ⟨_, herror⟩
  · intro error herror
    obtain ⟨before, method, binding, after, owner, hsplit, hbefore, howner, hitem, hcollision⟩ :=
      synthesize_failFast_of_not_methodsApart distinct named (hfails herror)
    rw [herror, Except.error.injEq] at hcollision
    exact ⟨before, method, binding, after, owner, hsplit, hbefore, howner, hitem, hcollision⟩
  · intro table htable
    have hapart := methodsApart_of_synthesize distinct named htable
    rw [eq_insertAll_of_synthesize htable]
    refine ⟨synthesize_lastWriteWins_of_named named, fun q hperm => ?_⟩
    rw [← insertAll_candidates_of_perm distinct hapart hperm]
    exact synthesize_failFast_of_methodsApart (namesDistinct_of_perm distinct hperm)
      (fun item hitem => named item (hperm.mem_iff.mp hitem)) (methodsApart_of_perm hapart hperm)
  · intro table htable
    have hapart : p.MethodsApart {} := methodsApart_of_synthesize distinct named htable
    refine ⟨?_, fun item hitem kind hkind => methodFor?_of_synthesize distinct htable hitem hkind⟩
    rw [size_of_synthesize htable, ← length_candidates {} named]
    exact (congrArg List.length (nodup_candidates distinct hapart).dedup).trans (List.length_map _)

theorem synthesize_failFast_exact_twins :
    twins.NamesDistinct ∧ (∀ item ∈ twins.items, ¬ item.Nameless) ∧
      ∃ error, twins.synthesize ⟨.failFast, {}⟩ = .error error := by
  have distinct : twins.NamesDistinct := by decide
  have named : ∀ item ∈ twins.items, ¬ item.Nameless := by decide +kernel
  have hshares : twins.items[1].SharesMethod {} twins.items[2] := by decide +kernel
  have hfails := (synthesize_failFast_exact twins {} distinct named).1
  exact ⟨distinct, named, hfails.mpr ⟨_, List.getElem_mem _, _, List.getElem_mem _,
    by decide +kernel, hshares⟩⟩

end Parameters

end MethodSynthesis
