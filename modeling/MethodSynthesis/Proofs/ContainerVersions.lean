import MethodSynthesis.Proofs.ContainerStructure

/-!
# Containers as ordered maps with a version

From an empty container on, a name stands at one position, and every operation on the name reaches
that position alone. The version counts the changes that took effect, so a version that has not
moved tells that the structure has not.
-/

namespace MethodSynthesis

namespace Parameters

variable {p : Parameters} {name : String} {item : Item} {before after : List Item}

/-! ## Counting changes -/

instance (p : Parameters) : (c : ParametersChange) → Decidable (c.TakesEffect p)
  | .add item =>
      decidable_of_iff (item.name ∉ p.itemNames)
        (by simp [ParametersChange.TakesEffect, addItem_eq_ok_iff])
  | .remove name => inferInstanceAs (Decidable (name ∈ p.itemNames))
  | .replace _ => isTrue trivial
  | .write _ _ => isFalse id

def effects (p : Parameters) : List ParametersChange → Nat
  | [] => 0
  | c :: rest => (if c.TakesEffect p then 1 else 0) + effects (p.change c) rest

theorem changeAll_cons (p : Parameters) (c : ParametersChange) (rest : List ParametersChange) :
    p.changeAll (c :: rest) = (p.change c).changeAll rest := rfl

theorem changeAll_append (p : Parameters) (first second : List ParametersChange) :
    p.changeAll (first ++ second) = (p.changeAll first).changeAll second :=
  List.foldl_append

theorem version_changeAll (p : Parameters) (changes : List ParametersChange) :
    (p.changeAll changes).version = p.version + p.effects changes := by
  induction changes generalizing p with
  | nil => rfl
  | cons c rest ih =>
      rw [changeAll_cons, ih, effects]
      by_cases heffect : c.TakesEffect p
      · rw [version_change heffect, if_pos heffect]
        omega
      · rw [(change_of_not_takesEffect heffect).2, if_neg heffect]
        omega

theorem shape_changeAll_of_effects_eq_zero {changes : List ParametersChange}
    (h : p.effects changes = 0) : (p.changeAll changes).shape = p.shape := by
  induction changes generalizing p with
  | nil => rfl
  | cons c rest ih =>
      rw [effects] at h
      by_cases heffect : c.TakesEffect p
      · rw [if_pos heffect] at h
        omega
      · rw [if_neg heffect, Nat.zero_add] at h
        rw [changeAll_cons, ih h, (change_of_not_takesEffect heffect).1]

/-- Versions that agree as words of 64 bits agree, since the run is too short for them to repeat. -/
theorem shape_eq_of_version_mod_eq {changes more : List ParametersChange}
    (hcount : (new name).effects (changes ++ more) < UInt64.size)
    (hreached : (new name).changeAll changes = p)
    (hversion : (p.changeAll more).version % UInt64.size = p.version % UInt64.size) :
    (p.changeAll more).shape = p.shape := by
  have hstart : (new name).version = 0 := rfl
  have hwhole := version_changeAll (new name) (changes ++ more)
  have hlater := version_changeAll p more
  rw [changeAll_append, hreached, hstart] at hwhole
  refine shape_changeAll_of_effects_eq_zero ?_
  unfold UInt64.size at hcount hversion
  omega

/-! ## Positions of names -/

theorem itemNames_getElem?_eq_some_iff {position : Nat} :
    p.itemNames[position]? = some name ↔
      ∃ before item after, p.items = before ++ item :: after ∧ before.length = position ∧
        item.name = name := by
  rw [itemNames, List.getElem?_map, Option.map_eq_some_iff]
  constructor
  · intro h
    obtain ⟨item, hget, hname⟩ := h
    obtain ⟨hlt, rfl⟩ := List.getElem?_eq_some_iff.mp hget
    refine ⟨p.items.take position, p.items[position], p.items.drop (position + 1), ?_, ?_, hname⟩
    · simp
    · exact List.length_take_of_le (Nat.le_of_lt hlt)
  · rintro ⟨before, item, after, hitems, rfl, rfl⟩
    exact ⟨item, by simp [hitems], rfl⟩

theorem find?_eq_some_iff_mem (hdistinct : p.NamesDistinct) :
    p.find? name = some item ↔ item ∈ p.items ∧ item.name = name := by
  constructor
  · intro hfind
    exact ⟨List.mem_of_find?_eq_some hfind, name_of_find? hfind⟩
  · rintro ⟨hitem, rfl⟩
    exact find?_of_mem hdistinct hitem

theorem find?_eq_some_iff_position (hdistinct : p.NamesDistinct) :
    p.find? name = some item ↔
      ∃ position, p.itemNames[position]? = some name ∧ p.item? position = some item := by
  constructor
  · intro hfind
    obtain ⟨before, after, hitems, hname, -⟩ := find?_eq_some_iff.mp hfind
    refine ⟨before.length, ?_, by simp [item?, hitems]⟩
    exact itemNames_getElem?_eq_some_iff.mpr ⟨before, item, after, hitems, rfl, hname⟩
  · intro ⟨position, hname, hitem⟩
    obtain ⟨before, found, after, hitems, rfl, rfl⟩ := itemNames_getElem?_eq_some_iff.mp hname
    have hfound : found = item := by simpa [item?, hitems] using hitem
    rw [← hfound]
    exact find?_of_split hdistinct hitems

/-! ## Operations at a position -/

theorem position?_of_name (hdistinct : p.NamesDistinct)
    (hitems : p.items = before ++ item :: after) :
    p.position? item.name = some before.length :=
  position?_of_split hitems rfl (ne_of_split hdistinct hitems)

theorem update_of_split (hdistinct : p.NamesDistinct) (hitems : p.items = before ++ item :: after)
    (replacement : Item) :
    p.update item.name replacement = { p with items := before ++ replacement :: after } := by
  simp only [update, position?_of_name hdistinct hitems, hitems]
  simp

theorem writeItem_of_split (hdistinct : p.NamesDistinct)
    (hitems : p.items = before ++ item :: after) (w : ItemWrite) :
    p.writeItem item.name w =
      { p with items := before ++ (item.write w).toOption.getD item :: after } := by
  have hfind := find?_of_split hdistinct hitems
  cases hwrite : item.write w with
  | ok written =>
      simp only [writeItem, hfind, hwrite, update_of_split hdistinct hitems]
      rfl
  | error e =>
      have hsame : (Except.error e : Except FacetError Item).toOption.getD item = item := rfl
      simp only [writeItem, hfind, hwrite]
      rw [hsame, ← hitems]

theorem removeItem_of_split (hdistinct : p.NamesDistinct)
    (hitems : p.items = before ++ item :: after) :
    p.removeItem item.name =
      (some item, { p with items := before ++ after, version := p.version + 1 }) := by
  simp only [removeItem, position?_of_name hdistinct hitems, hitems]
  simp [List.eraseIdx_append_of_length_le]

theorem replaceItem_of_split {replacement : Item} (hdistinct : p.NamesDistinct)
    (hitems : p.items = before ++ item :: after) (hname : replacement.name = item.name) :
    p.replaceItem replacement =
      (some item,
        { p with items := before ++ replacement :: after, version := p.version + 1 }) := by
  simp only [replaceItem, hname, position?_of_name hdistinct hitems, hitems]
  simp

/-- One item of each name, each reached at its position: what lookups answer and changes do. -/
structure IsOrderedMap (p : Parameters) : Prop where
  distinct : p.NamesDistinct
  find_iff_mem : ∀ name item, p.find? name = some item ↔ item ∈ p.items ∧ item.name = name
  find_iff_position : ∀ name item, p.find? name = some item ↔
    ∃ position, p.itemNames[position]? = some name ∧ p.item? position = some item
  update_at : ∀ before item after replacement, p.items = before ++ item :: after →
    p.update item.name replacement = { p with items := before ++ replacement :: after }
  write_at : ∀ before item after w, p.items = before ++ item :: after →
    p.writeItem item.name w =
      { p with items := before ++ (item.write w).toOption.getD item :: after }
  write_missing : ∀ name w, name ∉ p.itemNames → p.writeItem name w = p
  add_taken : ∀ item, item.name ∈ p.itemNames →
    p.addItem item = .error (.duplicateName p.name item.name) ∧ p.change (.add item) = p
  add_fresh : ∀ item, item.name ∉ p.itemNames →
    p.addItem item = .ok { p with items := p.items ++ [item], version := p.version + 1 }
  remove_at : ∀ before item after, p.items = before ++ item :: after →
    p.removeItem item.name =
      (some item, { p with items := before ++ after, version := p.version + 1 })
  remove_missing : ∀ name, name ∉ p.itemNames → p.removeItem name = (none, p)
  replace_at : ∀ before old after item, p.items = before ++ old :: after → item.name = old.name →
    p.replaceItem item =
      (some old, { p with items := before ++ item :: after, version := p.version + 1 })
  replace_missing : ∀ item, item.name ∉ p.itemNames →
    p.replaceItem item =
      (none, { p with items := p.items ++ [item], version := p.version + 1 })

theorem isOrderedMap_of_namesDistinct (hdistinct : p.NamesDistinct) : p.IsOrderedMap where
  distinct := hdistinct
  find_iff_mem _ _ := find?_eq_some_iff_mem hdistinct
  find_iff_position _ _ := find?_eq_some_iff_position hdistinct
  update_at _ _ _ replacement hitems := update_of_split hdistinct hitems replacement
  write_at _ _ _ w hitems := writeItem_of_split hdistinct hitems w
  write_missing name w hmissing := by
    simp only [writeItem, find?_eq_none_iff.mpr hmissing]
  add_taken item htaken := by
    obtain ⟨position, hposition⟩ := Option.ne_none_iff_exists'.mp
      (mt position?_eq_none_iff.mp (not_not_intro htaken))
    have hrefused : p.addItem item = .error (.duplicateName p.name item.name) := by
      simp only [addItem, hposition]
    exact ⟨hrefused, by simp [change, hrefused, Except.toOption]⟩
  add_fresh _ hfresh := addItem_eq_ok_iff.mpr ⟨hfresh, rfl⟩
  remove_at _ _ _ hitems := removeItem_of_split hdistinct hitems
  remove_missing name hmissing := by
    simp only [removeItem, position?_eq_none_iff.mpr hmissing]
  replace_at _ _ _ _ hitems hname := replaceItem_of_split hdistinct hitems hname
  replace_missing item hmissing := by
    simp only [replaceItem, position?_eq_none_iff.mpr hmissing]

/-- A container that is reached from an empty one is an ordered map, and its version counts the
changes that took effect: these raise it by one, all others keep it together with the structure, and
in a run too short for words of 64 bits to repeat, equal versions mean equal structures. -/
theorem changeAll_versionedMap (name : String) (changes : List ParametersChange) (p : Parameters)
    (reached : (new name).changeAll changes = p) :
    p.IsOrderedMap ∧
    p.version = (new name).effects changes ∧
    (∀ c : ParametersChange, c.TakesEffect p → (p.change c).version = p.version + 1) ∧
    (∀ c : ParametersChange, ¬ c.TakesEffect p →
      (p.change c).version = p.version ∧ (p.change c).shape = p.shape) ∧
    (∀ more, (new name).effects (changes ++ more) < UInt64.size →
      (p.changeAll more).version % UInt64.size = p.version % UInt64.size →
        (p.changeAll more).itemNames = p.itemNames ∧ (p.changeAll more).shape = p.shape) := by
  have hdistinct : p.NamesDistinct :=
    reached ▸ namesDistinct_changeAll (namesDistinct_new name) changes
  have hversion := version_changeAll (new name) changes
  have hstart : (new name).version = 0 := rfl
  rw [reached, hstart, Nat.zero_add] at hversion
  refine ⟨isOrderedMap_of_namesDistinct hdistinct, hversion, fun c => version_change, ?_, ?_⟩
  · intro c hnone
    exact (change_of_not_takesEffect hnone).symm
  · intro more hcount hsame
    have hshape := shape_eq_of_version_mod_eq hcount reached hsame
    refine ⟨?_, hshape⟩
    rw [itemNames_eq_map_shape, itemNames_eq_map_shape, hshape]

/-- A lamp is added, refused a second time, written and replaced, and a shade comes behind it. -/
def furnish : List ParametersChange :=
  [.add (.value ⟨{ name := "lamp", type := .int }, [], [.null], false⟩),
    .add (.switch (.ofDefinition { name := "lamp", type := .void })),
    .write "lamp" (.value 0 (.int 3)),
    .replace (.value ⟨{ name := "lamp", type := .double }, [], [.null], false⟩),
    .add (.switch (.ofDefinition { name := "shade", type := .void, optional := true })),
    .remove "table"]

theorem changeAll_versionedMap_desk :
    ∃ p, (new "desk").changeAll furnish = p ∧ p.IsOrderedMap ∧ p.version = 3 ∧
      (p.changeAll [.write "shade" (.enabled true)]).shape = p.shape := by
  obtain ⟨hmap, hversion, -, -, hsame⟩ := changeAll_versionedMap "desk" furnish _ rfl
  have heffects : (new "desk").effects furnish = 3 := by decide +kernel
  have hlater := hsame [.write "shade" (.enabled true)] (by decide +kernel) (by decide +kernel)
  exact ⟨_, rfl, hmap, hversion.trans heffects, hlater.2⟩

end Parameters

end MethodSynthesis
