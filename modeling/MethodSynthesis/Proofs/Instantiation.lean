import MethodSynthesis.Proofs.ContainerStructure
import MethodSynthesis.Proofs.ItemStates
import MethodSynthesis.Proofs.RepeatedNames

/-!
# Containers made from definitions

A definition whose names are distinct is made into a container item by item. The container is there
when every item can be made, and holds the items as they are declared; otherwise the first item that
cannot be made says why. The names are checked before, so that adding an item never finds its name
taken.
-/

namespace MethodSynthesis

open Outcomes

/-! ## Items that can be made -/

namespace ItemDefinition

/-- The type of the item has a form in which it keeps a value. -/
def CanStore (d : ItemDefinition) (v : Value) : Prop := ∃ stored, d.type.store? v = some stored

/-- The slots can be filled: every choice has a stored form, and so has the initial value. A default
matters only where no choice is selected. -/
structure Fillable (d : ItemDefinition) : Prop where
  choices : ∀ choice ∈ d.discrete, d.CanStore choice.value
  selected : ∀ choice, d.defaultDiscreteIndex = some choice → choice < d.discrete.length
  default : d.defaultDiscreteIndex = none → ∀ v, d.default = some v → d.CanStore v

/-- Where there are no slots, nothing has to be filled. -/
def Instantiable (d : ItemDefinition) : Prop := d.type.isValueBearing = true → d.Fillable

/-- The first fault of what is to be stored, and how it is reported: the choices are looked at in
their order, then the initial value. -/
inductive Fault (d : ItemDefinition) : ItemError → Prop where
  | choice {before : List DiscreteChoice} {choice : DiscreteChoice} {later : List DiscreteChoice}
      (split : d.discrete = before ++ choice :: later)
      (sound : ∀ other ∈ before, d.CanStore other.value) (unfit : ¬ d.CanStore choice.value) :
      d.Fault (.typeMismatch d.name d.type choice.value)
  | selected {choice : Nat} (sound : ∀ other ∈ d.discrete, d.CanStore other.value)
      (index : d.defaultDiscreteIndex = some choice) (missing : d.discrete.length ≤ choice) :
      d.Fault (.choiceOutOfRange d.name choice d.discrete.length)
  | default {v : Value} (sound : ∀ other ∈ d.discrete, d.CanStore other.value)
      (index : d.defaultDiscreteIndex = none) (declared : d.default = some v)
      (unfit : ¬ d.CanStore v) : d.Fault (.typeMismatch d.name d.type v)

/-- What every slot starts with: the selected choice, or else the default, or else null. -/
def initial? (d : ItemDefinition) : Option Value :=
  match d.defaultDiscreteIndex, d.default with
  | some choice, _ => d.storedChoice? choice
  | none, some v => d.type.store? v
  | none, none => some .null

variable {d : ItemDefinition}

theorem exists_coerce_iff {v : Value} : (∃ stored, d.coerce v = .ok stored) ↔ d.CanStore v := by
  simp only [coerce_eq_ok_iff]
  exact Iff.rfl

theorem coerce_eq_error_iff {v : Value} {e : ItemError} :
    d.coerce v = .error e ↔ ¬ d.CanStore v ∧ e = .typeMismatch d.name d.type v := by
  unfold coerce CanStore
  split
  · rename_i stored hstored
    simp [hstored]
  · rename_i hnone
    simp [hnone, eq_comm]

end ItemDefinition

namespace ValueItem

variable {d : ItemDefinition} {item : ValueItem} {e : ItemError}

theorem choiceAt_eq_error_iff {choices : List Value} {choice : Nat} :
    choiceAt d choices choice = .error e ↔
      choices.length ≤ choice ∧ e = .choiceOutOfRange d.name choice choices.length := by
  unfold choiceAt
  split
  · rename_i stored hstored
    obtain ⟨hbound, -⟩ := List.getElem?_eq_some_iff.mp hstored
    simp only [reduceCtorEq, false_iff, not_and]
    omega
  · rename_i hnone
    simp [List.getElem?_eq_none_iff.mp hnone, eq_comm]

theorem initialValue_eq_error_iff {choices : List Value} :
    initialValue d choices = .error e ↔
      (∃ choice, d.defaultDiscreteIndex = some choice ∧ choices.length ≤ choice ∧
        e = .choiceOutOfRange d.name choice choices.length) ∨
      d.defaultDiscreteIndex = none ∧ ∃ v, d.default = some v ∧ ¬ d.CanStore v ∧
        e = .typeMismatch d.name d.type v := by
  unfold initialValue
  split
  · rename_i hindex
    simp [hindex, choiceAt_eq_error_iff]
  · rename_i hindex hdefault
    simp [hindex, hdefault, ItemDefinition.coerce_eq_error_iff]
  · rename_i hindex hdefault
    simp [hindex, hdefault]

theorem exists_choices_iff :
    (∃ choices, (d.discrete.mapM fun choice => d.coerce choice.value) = .ok choices) ↔
      ∀ choice ∈ d.discrete, d.CanStore choice.value := by
  simp only [exists_mapM_eq_ok_iff, ItemDefinition.exists_coerce_iff]

theorem length_eq_of_mapM {choices : List Value}
    (h : (d.discrete.mapM fun choice => d.coerce choice.value) = .ok choices) :
    choices.length = d.discrete.length :=
  (mapM_eq_ok_iff.mp h).length_eq.symm

theorem exists_initialValue_iff {choices : List Value}
    (hlength : choices.length = d.discrete.length) :
    (∃ initial, initialValue d choices = .ok initial) ↔
      (∀ choice, d.defaultDiscreteIndex = some choice → choice < d.discrete.length) ∧
        (d.defaultDiscreteIndex = none → ∀ v, d.default = some v → d.CanStore v) := by
  rw [← hlength]
  unfold initialValue
  split
  · rename_i choice hindex
    simp [hindex, choiceAt_eq_ok_iff, ← Option.isSome_iff_exists]
  · rename_i hindex hdefault
    simp [hindex, hdefault, ItemDefinition.exists_coerce_iff]
  · rename_i hindex hdefault
    simp [hindex, hdefault]

theorem exists_ofDefinition_iff (hbears : d.type.isValueBearing = true) :
    (∃ item, ofDefinition d = .ok item) ↔ d.Fillable := by
  simp only [ofDefinition_eq_ok_iff, hbears, true_and]
  constructor
  · rintro ⟨_, choices, initial, hchoices, hinitial, -⟩
    obtain ⟨hselected, hdefault⟩ :=
      (exists_initialValue_iff (length_eq_of_mapM hchoices)).mp ⟨initial, hinitial⟩
    exact ⟨exists_choices_iff.mp ⟨choices, hchoices⟩, hselected, hdefault⟩
  · intro h
    obtain ⟨choices, hchoices⟩ := exists_choices_iff.mpr h.choices
    obtain ⟨initial, hinitial⟩ :=
      (exists_initialValue_iff (length_eq_of_mapM hchoices)).mpr ⟨h.selected, h.default⟩
    exact ⟨_, choices, initial, hchoices, hinitial, rfl⟩

theorem ofDefinition_eq_error_iff (hbears : d.type.isValueBearing = true) :
    ofDefinition d = .error e ↔ d.Fault e := by
  have hsteps : ofDefinition d = .error e ↔
      (d.discrete.mapM fun choice => d.coerce choice.value) = .error e ∨
        ∃ choices, (d.discrete.mapM fun choice => d.coerce choice.value) = .ok choices ∧
          initialValue d choices = .error e := by
    simp [ofDefinition, hbears, bind_eq_error_iff, pure, Except.pure]
  rw [hsteps]
  constructor
  · rintro (hchoice | ⟨choices, hchoices, hinitial⟩)
    · obtain ⟨before, choice, later, hsplit, hbefore, herror⟩ := mapM_eq_error_iff.mp hchoice
      obtain ⟨hunfit, rfl⟩ := ItemDefinition.coerce_eq_error_iff.mp herror
      exact .choice hsplit (fun other hother =>
        ItemDefinition.exists_coerce_iff.mp (hbefore other hother)) hunfit
    · have hsound := exists_choices_iff.mp ⟨choices, hchoices⟩
      rcases initialValue_eq_error_iff.mp hinitial with
        ⟨choice, hindex, hmissing, rfl⟩ | ⟨hindex, v, hdefault, hunfit, rfl⟩
      · rw [length_eq_of_mapM hchoices] at hmissing ⊢
        exact .selected hsound hindex hmissing
      · exact .default hsound hindex hdefault hunfit
  · intro h
    cases h with
    | choice hsplit hsound hunfit =>
        refine Or.inl (mapM_eq_error_iff.mpr ⟨_, _, _, hsplit, fun other hother => ?_, ?_⟩)
        · exact ItemDefinition.exists_coerce_iff.mpr (hsound other hother)
        · exact ItemDefinition.coerce_eq_error_iff.mpr ⟨hunfit, rfl⟩
    | selected hsound hindex hmissing =>
        obtain ⟨choices, hchoices⟩ := exists_choices_iff.mpr hsound
        rw [← length_eq_of_mapM hchoices] at hmissing ⊢
        exact Or.inr ⟨choices, hchoices,
          initialValue_eq_error_iff.mpr (Or.inl ⟨_, hindex, hmissing, rfl⟩)⟩
    | default hsound hindex hdefault hunfit =>
        obtain ⟨choices, hchoices⟩ := exists_choices_iff.mpr hsound
        exact Or.inr ⟨choices, hchoices,
          initialValue_eq_error_iff.mpr (Or.inr ⟨hindex, _, hdefault, hunfit, rfl⟩)⟩

theorem slots_of_ofDefinition (made : ofDefinition d = .ok item) :
    ∃ v, d.initial? = some v ∧ item.values = List.replicate d.numberOfValues v := by
  have hchoices : item.StoresChoices := (wellTyped_of_ofDefinition made).choices
  obtain ⟨-, choices, initial, -, hinitial, rfl⟩ := ofDefinition_eq_ok_iff.mp made
  refine ⟨initial, ?_, rfl⟩
  rcases initialValue_eq_ok_iff.mp hinitial with
    ⟨choice, hindex, hchoice⟩ | ⟨hindex, ⟨v, hdefault, hstored⟩ | ⟨hdefault, rfl⟩⟩
  · have hstored := hchoices.getElem?_eq choice
    simp only [ItemDefinition.initial?, hindex]
    exact hstored.symm.trans hchoice
  · simpa only [ItemDefinition.initial?, hindex, hdefault] using hstored
  · simp only [ItemDefinition.initial?, hindex, hdefault]

end ValueItem

namespace Item

structure IsNew (item : Item) (d : ItemDefinition) : Prop where
  definition : item.definition = d
  capabilities : item.capabilities = ⟨d.type.isValueBearing, d.optional, d.isDiscrete⟩
  enabled : item.enabled = d.enabledByDefault
  slots : d.type.isValueBearing = true →
    ∃ v, d.initial? = some v ∧ item.slots = List.replicate d.numberOfValues v
  noSlots : d.type.isValueBearing = false → item.slots = []

variable {d : ItemDefinition} {item : Item}

theorem exists_ofDefinition_iff : (∃ item, ofDefinition d = .ok item) ↔ d.Instantiable := by
  unfold ofDefinition ItemDefinition.Instantiable
  by_cases hbears : d.type.isValueBearing = true
  · simp only [hbears, if_true, forall_const, ← ValueItem.exists_ofDefinition_iff hbears]
    constructor
    · intro ⟨_, made⟩
      obtain ⟨x, hx, -⟩ := map_eq_ok_iff.mp made
      exact ⟨x, hx⟩
    · intro ⟨x, hx⟩
      exact ⟨.value x, map_eq_ok_iff.mpr ⟨x, hx, rfl⟩⟩
  · simp [hbears]

theorem ofDefinition_eq_error_iff {e : ItemError} :
    ofDefinition d = .error e ↔ d.type.isValueBearing = true ∧ d.Fault e := by
  unfold ofDefinition
  by_cases hbears : d.type.isValueBearing = true
  · simp only [hbears, if_true, true_and, map_eq_error_iff]
    exact ValueItem.ofDefinition_eq_error_iff hbears
  · simp [hbears]

theorem isNew_of_ofDefinition (made : ofDefinition d = .ok item) : item.IsNew d := by
  have hconforms : item.Conforms d := conforms_writeAll made []
  unfold ofDefinition at made
  split at made
  · rename_i hbears
    obtain ⟨x, hx, rfl⟩ := map_eq_ok_iff.mp made
    refine ⟨hconforms.definition, hconforms.capabilities, ?_, ?_, ?_⟩
    · obtain ⟨-, _, _, -, -, rfl⟩ := ValueItem.ofDefinition_eq_ok_iff.mp hx
      rfl
    · exact fun _ => ValueItem.slots_of_ofDefinition hx
    · simp [hbears]
  · rename_i hvoid
    cases made
    exact ⟨rfl, hconforms.capabilities, rfl, fun hbears => absurd hbears hvoid, fun _ => rfl⟩

theorem name_of_ofDefinition (made : ofDefinition d = .ok item) : item.name = d.name := by
  rw [name, (isNew_of_ofDefinition made).definition]

end Item

/-! ## The container -/

namespace Parameters

def addDefined (p : Parameters) (d : ItemDefinition) : Except ItemError Parameters := do
  let item ← Item.ofDefinition d
  p.addItem item

variable {p : Parameters} {d : ItemDefinition} {item : Item}

def withItems (p : Parameters) (items : List Item) : Parameters :=
  { p with items := p.items ++ items, version := p.version + items.length }

theorem withItems_withItems (p : Parameters) (first second : List Item) :
    (p.withItems first).withItems second = p.withItems (first ++ second) := by
  simp [withItems, Nat.add_assoc]

theorem addItem_of_made (made : Item.ofDefinition d = .ok item) (hfresh : d.name ∉ p.itemNames) :
    p.addItem item = .ok (p.withItems [item]) := by
  rw [← Item.name_of_ofDefinition made] at hfresh
  exact addItem_eq_ok_iff.mpr ⟨hfresh, rfl⟩

theorem itemNames_withItems_of_made (made : Item.ofDefinition d = .ok item) :
    (p.withItems [item]).itemNames = p.itemNames ++ [d.name] := by
  simp [withItems, itemNames, Item.name_of_ofDefinition made]

theorem itemNames_new_withItems {name : String} {ds : List ItemDefinition} {items : List Item}
    (made : List.Forall₂ (fun declared item => Item.ofDefinition declared = .ok item) ds items) :
    ((new name).withItems items).itemNames = ds.map ItemDefinition.name := by
  show ([] ++ items).map Item.name = ds.map ItemDefinition.name
  rw [List.nil_append]
  induction made with
  | nil => rfl
  | cons hmade _ ih => rw [List.map_cons, List.map_cons, ih, Item.name_of_ofDefinition hmade]

/-- Items of new and distinct names are added as they are made: adding finds no name taken. -/
theorem foldlM_addDefined {ds : List ItemDefinition}
    (hdistinct : (p.itemNames ++ ds.map ItemDefinition.name).Nodup) :
    ds.foldlM addDefined p = (ds.mapM Item.ofDefinition).map p.withItems := by
  induction ds generalizing p with
  | nil =>
      show Except.ok p = .ok (p.withItems [])
      simp [withItems]
  | cons d rest ih =>
      rw [List.foldlM_cons, List.mapM_cons, addDefined]
      cases hmade : Item.ofDefinition d with
      | error e => rfl
      | ok item =>
          have hfresh : d.name ∉ p.itemNames := fun hmem =>
            (List.nodup_append.mp hdistinct).2.2 d.name hmem d.name List.mem_cons_self rfl
          have hrest : ((p.withItems [item]).itemNames ++ rest.map ItemDefinition.name).Nodup := by
            rw [itemNames_withItems_of_made hmade, List.append_assoc]
            exact hdistinct
          show p.addItem item >>= (rest.foldlM addDefined ·) = _
          rw [addItem_of_made hmade hfresh]
          show rest.foldlM addDefined (p.withItems [item]) = _
          rw [ih hrest]
          cases rest.mapM Item.ofDefinition with
          | error e => rfl
          | ok items =>
              show Except.ok ((p.withItems [item]).withItems items) =
                .ok (p.withItems (item :: items))
              rw [withItems_withItems, List.singleton_append]

theorem foldlM_addDefined_new (name : String) {ds : List ItemDefinition}
    (hdistinct : (ds.map ItemDefinition.name).Nodup) :
    ds.foldlM addDefined (new name) = (ds.mapM Item.ofDefinition).map (new name).withItems :=
  foldlM_addDefined hdistinct

end Parameters

namespace Definition

variable {d : Definition} {e : ItemError}

def FailsFirst (d : Definition) (e : ItemError) : Prop :=
  ∃ before item later, d.items = before ++ item :: later ∧
    (∀ other ∈ before, other.Instantiable) ∧ item.type.isValueBearing = true ∧ item.Fault e

theorem createParameters_eq_foldlM (d : Definition) : d.createParameters =
    d.checkNames >>= fun _ => d.items.foldlM Parameters.addDefined (.new d.name) := rfl

/-- With distinct names the container is there when all items can be made. -/
theorem createParameters_of_namesDistinct (h : d.NamesDistinct) :
    d.createParameters =
      (d.items.mapM Item.ofDefinition).map (Parameters.new d.name).withItems := by
  rw [createParameters_eq_foldlM, checkNames_eq_ok_iff.mpr h]
  exact Parameters.foldlM_addDefined_new d.name h

theorem createParameters_eq_ok_iff {p : Parameters} :
    d.createParameters = .ok p ↔ d.NamesDistinct ∧
      ∃ items, List.Forall₂ (fun declared item => Item.ofDefinition declared = .ok item) d.items
        items ∧ (Parameters.new d.name).withItems items = p := by
  by_cases h : d.NamesDistinct
  · simp only [createParameters_of_namesDistinct h, map_eq_ok_iff, mapM_eq_ok_iff, h, true_and]
  · have hnames : d.checkNames ≠ .ok () := mt checkNames_eq_ok_iff.mp h
    simp [createParameters_eq_foldlM, bind_eq_ok_iff, h, hnames]

theorem exists_createParameters_iff :
    (∃ p, d.createParameters = .ok p) ↔
      d.NamesDistinct ∧ ∀ item ∈ d.items, item.Instantiable := by
  simp only [createParameters_eq_ok_iff, ← Item.exists_ofDefinition_iff, ← exists_mapM_eq_ok_iff,
    mapM_eq_ok_iff]
  constructor
  · intro ⟨_, hdistinct, items, hitems, _⟩
    exact ⟨hdistinct, items, hitems⟩
  · intro ⟨hdistinct, items, hitems⟩
    exact ⟨_, hdistinct, items, hitems, rfl⟩

theorem createParameters_eq_error_iff :
    d.createParameters = .error e ↔
      (∃ name, d.RepeatsFirst name ∧ e = .duplicateName d.name name) ∨
        d.NamesDistinct ∧ d.FailsFirst e := by
  by_cases h : d.NamesDistinct
  · have hnames : ¬ ∃ name, d.RepeatsFirst name ∧ e = .duplicateName d.name name := by
      rw [← checkNames_eq_error_iff, checkNames_eq_ok_iff.mpr h]
      simp
    simp only [createParameters_of_namesDistinct h, map_eq_error_iff, mapM_eq_error_iff,
      Item.exists_ofDefinition_iff, Item.ofDefinition_eq_error_iff, hnames, h, true_and, false_or]
    exact Iff.rfl
  · have hnames : d.checkNames ≠ .ok () := mt checkNames_eq_ok_iff.mp h
    simp [createParameters_eq_foldlM, bind_eq_error_iff, h, hnames, checkNames_eq_error_iff]

theorem addItem_of_front {before later : List ItemDefinition} {declared : ItemDefinition}
    {p : Parameters} {item : Item} (hdistinct : d.NamesDistinct)
    (hsplit : d.items = before ++ declared :: later)
    (hfront : before.foldlM Parameters.addDefined (.new d.name) = .ok p)
    (made : Item.ofDefinition declared = .ok item) :
    p.addItem item = .ok (p.withItems [item]) := by
  rw [NamesDistinct, hsplit, List.map_append, List.map_cons] at hdistinct
  obtain ⟨hbefore, -, hapart⟩ := List.nodup_append.mp hdistinct
  rw [Parameters.foldlM_addDefined_new _ hbefore, map_eq_ok_iff] at hfront
  obtain ⟨items, hitems, rfl⟩ := hfront
  apply Parameters.addItem_of_made made
  rw [Parameters.itemNames_new_withItems (mapM_eq_ok_iff.mp hitems)]
  intro hmem
  exact hapart declared.name hmem declared.name List.mem_cons_self rfl

/-- A definition is made into a container exactly when its item names are distinct and each of its
items can be made. A repeated name is reported before all other faults, and among these the first;
a container that is there holds the items as they are declared. The items are made and added one by
one, and none of them finds its name taken. -/
theorem createParameters_exact (d : Definition) :
    ((∃ p, d.createParameters = .ok p) ↔
      d.NamesDistinct ∧ ∀ item ∈ d.items, item.Instantiable) ∧
    (∀ e, d.createParameters = .error e ↔
      (∃ name, d.RepeatsFirst name ∧ e = .duplicateName d.name name) ∨
        d.NamesDistinct ∧ d.FailsFirst e) ∧
    (∀ p, d.createParameters = .ok p →
      p.name = d.name ∧ p.version = d.items.length ∧
        p.itemNames = d.items.map ItemDefinition.name ∧
        List.Forall₂ (fun declared item => item.IsNew declared) d.items p.items) ∧
    d.createParameters =
      (d.checkNames >>= fun _ => d.items.foldlM Parameters.addDefined (.new d.name)) ∧
    (d.NamesDistinct → ∀ before declared later p item,
      d.items = before ++ declared :: later →
      before.foldlM Parameters.addDefined (.new d.name) = .ok p →
      Item.ofDefinition declared = .ok item → ∃ next, p.addItem item = .ok next) := by
  refine ⟨exists_createParameters_iff, fun e => createParameters_eq_error_iff, fun p hp => ?_,
    createParameters_eq_foldlM d, fun hdistinct before declared later p item hsplit hfront made =>
      ⟨_, addItem_of_front hdistinct hsplit hfront made⟩⟩
  obtain ⟨-, items, hitems, rfl⟩ := createParameters_eq_ok_iff.mp hp
  refine ⟨rfl, ?_, Parameters.itemNames_new_withItems hitems,
    hitems.imp fun _ _ => Item.isNew_of_ofDefinition⟩
  show 0 + items.length = d.items.length
  rw [Nat.zero_add, hitems.length_eq]

/-- A lamp, whose default is no concern of a switch, and a level that selects its second choice in
front of a default that it could not store. -/
def bench : Definition where
  name := "bench"
  items := [{ name := "lamp", type := .void, default := some (.int 1) },
    { name := "level", type := .double, numberOfValues := 2, default := some (.string "loud"),
      discrete := [⟨"low", .int 1⟩, ⟨"high", .int 2⟩], defaultDiscreteIndex := some 1 }]

example : (bench.createParameters.map fun p => p.items.map Item.slots) =
    .ok [[], [.float (.ofInt 2), .float (.ofInt 2)]] := by
  decide +kernel

end Definition

end MethodSynthesis
