import Mathlib.Data.List.Nodup
import MethodSynthesis.Parameters.Change
import MethodSynthesis.Proofs.ItemWrites

/-!
# Structure of containers

The item of a name is the first one with it, and an update reaches that item alone. The structure
of a container is the list of its definitions and facets: writes keep it together with the version,
and every change that takes effect raises the version by one.
-/

namespace MethodSynthesis

namespace Parameters

variable {p : Parameters} {name : String} {item replacement : Item} {before after : List Item}

def NamesDistinct (p : Parameters) : Prop := p.itemNames.Nodup

instance (p : Parameters) : Decidable p.NamesDistinct :=
  inferInstanceAs (Decidable p.itemNames.Nodup)

/-! ## Lookup by name -/

theorem find?_eq_none_iff : p.find? name = none ↔ name ∉ p.itemNames := by
  simp [find?, itemNames]

theorem position?_eq_none_iff : p.position? name = none ↔ name ∉ p.itemNames := by
  simp [position?, itemNames]

theorem find?_eq_some_iff :
    p.find? name = some item ↔
      ∃ before after, p.items = before ++ item :: after ∧ item.name = name ∧
        ∀ other ∈ before, other.name ≠ name := by
  simp only [find?, List.find?_eq_some_iff_append, decide_eq_true_eq, Bool.not_eq_true',
    decide_eq_false_iff_not]
  constructor
  · intro ⟨hname, before, after, hitems, hbefore⟩
    exact ⟨before, after, hitems, hname, hbefore⟩
  · intro ⟨before, after, hitems, hname, hbefore⟩
    exact ⟨hname, before, after, hitems, hbefore⟩

theorem name_of_find? (h : p.find? name = some item) : item.name = name := by
  obtain ⟨before, after, -, hname, -⟩ := find?_eq_some_iff.mp h
  exact hname

theorem ne_of_split (hdistinct : p.NamesDistinct) (hitems : p.items = before ++ item :: after) :
    ∀ other ∈ before, other.name ≠ item.name := by
  intro other hother heq
  rw [NamesDistinct, itemNames, hitems, List.map_append, List.map_cons] at hdistinct
  have hapart := (List.nodup_append.mp hdistinct).2.2
  exact hapart other.name (List.mem_map_of_mem hother) item.name List.mem_cons_self heq

theorem find?_of_split (hdistinct : p.NamesDistinct) (hitems : p.items = before ++ item :: after) :
    p.find? item.name = some item :=
  find?_eq_some_iff.mpr ⟨before, after, hitems, rfl, ne_of_split hdistinct hitems⟩

theorem find?_of_mem (hdistinct : p.NamesDistinct) (hitem : item ∈ p.items) :
    p.find? item.name = some item := by
  obtain ⟨before, after, hitems⟩ := List.append_of_mem hitem
  exact find?_of_split hdistinct hitems

theorem position?_of_split (hitems : p.items = before ++ item :: after) (hname : item.name = name)
    (hbefore : ∀ other ∈ before, other.name ≠ name) : p.position? name = some before.length := by
  have hnone : before.findIdx? (fun item => item.name = name) = none := by
    simpa [List.findIdx?_eq_none_iff] using hbefore
  rw [position?, hitems, List.findIdx?_append, hnone]
  simp [List.findIdx?_cons, hname]

/-! ## Updates -/

@[simp] theorem name_update (p : Parameters) (name : String) (item : Item) :
    (p.update name item).name = p.name := by
  unfold update
  split <;> rfl

@[simp] theorem version_update (p : Parameters) (name : String) (item : Item) :
    (p.update name item).version = p.version := by
  unfold update
  split <;> rfl

theorem items_update_of_split (hitems : p.items = before ++ item :: after)
    (hname : item.name = name) (hbefore : ∀ other ∈ before, other.name ≠ name)
    (replacement : Item) :
    (p.update name replacement).items = before ++ replacement :: after := by
  simp only [update, position?_of_split hitems hname hbefore, hitems]
  simp

theorem map_items_update {α : Type} {f : Item → α} (h : p.find? name = some item)
    (hf : f replacement = f item) : (p.update name replacement).items.map f = p.items.map f := by
  obtain ⟨before, after, hitems, hname, hbefore⟩ := find?_eq_some_iff.mp h
  rw [items_update_of_split hitems hname hbefore, hitems]
  simp [hf]

theorem find?_update_self (h : p.find? name = some item) (hname : replacement.name = name) :
    (p.update name replacement).find? name = some replacement := by
  obtain ⟨before, after, hitems, hitem, hbefore⟩ := find?_eq_some_iff.mp h
  exact find?_eq_some_iff.mpr
    ⟨before, after, items_update_of_split hitems hitem hbefore replacement, hname, hbefore⟩

end Parameters

/-! ## Changes of the structure -/

/-- What synthesis and callers see of an item apart from its state. -/
def Item.shape (item : Item) : ItemDefinition × Capabilities := (item.definition, item.capabilities)

theorem Item.write_shape {item after : Item} {w : ItemWrite} (h : item.write w = .ok after) :
    after.shape = item.shape := by
  rw [Item.shape, Item.write_definition h, Item.write_capabilities h, Item.shape]

def ParametersChange.TakesEffect (p : Parameters) : ParametersChange → Prop
  | .add item => ∃ added, p.addItem item = .ok added
  | .remove name => name ∈ p.itemNames
  | .replace _ => True
  | .write _ _ => False

namespace Parameters

variable {p : Parameters} {name : String} {item : Item}

def shape (p : Parameters) : List (ItemDefinition × Capabilities) := p.items.map Item.shape

theorem itemNames_eq_map_shape (p : Parameters) : p.itemNames = p.shape.map fun s => s.1.name := by
  simp [itemNames, shape, Item.shape, Item.name]

theorem addItem_eq_ok_iff {added : Parameters} :
    p.addItem item = .ok added ↔
      item.name ∉ p.itemNames ∧
        added = { p with items := p.items ++ [item], version := p.version + 1 } := by
  rw [← position?_eq_none_iff]
  cases h : p.position? item.name <;> simp [addItem, h, eq_comm]

theorem shape_writeItem (p : Parameters) (name : String) (w : ItemWrite) :
    (p.writeItem name w).shape = p.shape := by
  unfold writeItem
  split
  · rfl
  · rename_i item hfind
    split
    · rename_i after hwrite
      exact map_items_update hfind (Item.write_shape hwrite)
    · rfl

theorem version_writeItem (p : Parameters) (name : String) (w : ItemWrite) :
    (p.writeItem name w).version = p.version := by
  unfold writeItem
  split
  · rfl
  · split
    · exact version_update p _ _
    · rfl

theorem change_of_not_takesEffect {c : ParametersChange} (h : ¬ c.TakesEffect p) :
    (p.change c).shape = p.shape ∧ (p.change c).version = p.version := by
  cases c with
  | add item =>
      cases hadd : p.addItem item with
      | ok added => exact absurd ⟨added, hadd⟩ h
      | error e => simp [change, hadd, Except.toOption]
  | remove name =>
      have hposition : p.position? name = none := position?_eq_none_iff.mpr h
      simp [change, removeItem, hposition]
  | replace item => exact absurd trivial h
  | write name w => exact ⟨shape_writeItem p name w, version_writeItem p name w⟩

theorem version_change {c : ParametersChange} (h : c.TakesEffect p) :
    (p.change c).version = p.version + 1 := by
  cases c with
  | add item =>
      obtain ⟨added, hadd⟩ := h
      obtain ⟨-, rfl⟩ := addItem_eq_ok_iff.mp hadd
      simp [change, hadd, Except.toOption]
  | remove name =>
      cases hposition : p.position? name with
      | none => exact absurd h (position?_eq_none_iff.mp hposition)
      | some position => simp [change, removeItem, hposition]
  | replace item =>
      cases hposition : p.position? item.name <;> simp [change, replaceItem, hposition]
  | write name w => exact h.elim

theorem namesDistinct_of_shape_eq {q : Parameters} (h : p.NamesDistinct)
    (hshape : q.shape = p.shape) : q.NamesDistinct := by
  rw [NamesDistinct, itemNames_eq_map_shape] at h ⊢
  rw [hshape]
  exact h

theorem namesDistinct_change (h : p.NamesDistinct) (c : ParametersChange) :
    (p.change c).NamesDistinct := by
  have happend : ∀ {item : Item}, item.name ∉ p.itemNames →
      ((p.items ++ [item]).map Item.name).Nodup := by
    intro item hfresh
    rw [List.map_append, List.map_singleton]
    exact List.nodup_append.mpr ⟨h, List.nodup_singleton _, fun a ha b hb hab => by
      rw [List.mem_singleton.mp hb] at hab
      exact hfresh (hab ▸ ha)⟩
  cases c with
  | add item =>
      cases hadd : p.addItem item with
      | error e => simpa [change, hadd, Except.toOption] using h
      | ok added =>
          obtain ⟨hfresh, rfl⟩ := addItem_eq_ok_iff.mp hadd
          simpa [change, hadd, Except.toOption, NamesDistinct, itemNames] using happend hfresh
  | remove name =>
      cases hposition : p.position? name with
      | none => simpa [change, removeItem, hposition] using h
      | some position =>
          simp only [change, removeItem, hposition, NamesDistinct, itemNames]
          exact h.sublist ((List.eraseIdx_sublist p.items position).map Item.name)
  | replace item =>
      cases hfind : p.find? item.name with
      | none =>
          have hfresh := find?_eq_none_iff.mp hfind
          simp only [change, replaceItem, position?_eq_none_iff.mpr hfresh, NamesDistinct,
            itemNames]
          exact happend hfresh
      | some old =>
          obtain ⟨before, after, hitems, hname, hbefore⟩ := find?_eq_some_iff.mp hfind
          have hnames : (before ++ item :: after).map Item.name = p.itemNames := by
            simp [itemNames, hitems, hname]
          simp only [change, replaceItem, position?_of_split hitems hname hbefore, NamesDistinct,
            itemNames, hitems, List.set_append_right _ _ (Nat.le_refl _), Nat.sub_self,
            List.set_cons_zero]
          rw [hnames]
          exact h
  | write name w => exact namesDistinct_of_shape_eq h (shape_writeItem p name w)

theorem namesDistinct_new (name : String) : (new name).NamesDistinct := List.nodup_nil

/-- Every container reached from an empty one has distinct names. -/
theorem namesDistinct_changeAll (h : p.NamesDistinct) (changes : List ParametersChange) :
    (p.changeAll changes).NamesDistinct := by
  induction changes generalizing p with
  | nil => exact h
  | cons c rest ih => exact ih (namesDistinct_change h c)

end Parameters

end MethodSynthesis
