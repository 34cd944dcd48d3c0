import MethodSynthesis.Proofs.JsonRecords
import MethodSynthesis.Proofs.Outcomes
import MethodSynthesis.Proofs.RepeatedNames
import MethodSynthesis.Proofs.ValueTexts

/-!
# Written definitions read back

A definition reads back from its text exactly when its text loses nothing of it: its item names are
distinct, no bound or default is a null, and its floats are finite and survive the reader of
numbers. Reading gives no other definitions, floats that do not survive apart, so that what was
read once may be written and read again.
-/

namespace MethodSynthesis

/-! ## The readers of fields -/

namespace Json

variable {α : Type} {read : Json → Option α} {write : α → Json}

theorem index?_lt {document : Json} {n : Nat} (h : document.index? = some n) : n < UInt64.size := by
  cases document with
  | number literal =>
      simp only [index?, NumberLiteral.index?] at h
      split at h
      next => cases h
      next size hsize =>
        split at h
        next hbound =>
          cases h
          simp only [Bool.and_eq_true, decide_eq_true_eq] at hbound
          exact hbound.2
        next => cases h
  | _ => cases h

theorem lt_of_fieldOr_index? {field : Option Json} {n : Nat}
    (h : fieldOr 1 index? field = some n) : n < UInt64.size := by
  cases field with
  | none =>
      cases h
      decide
  | some document => exact index?_lt h

theorem index?_indexJson_iff {n : Nat} :
    (ItemDefinition.indexJson n).index? = some n ↔ n < UInt64.size :=
  ⟨index?_lt, NumberLiteral.index?_ofInt⟩

/-- A field that may be absent is recovered when it is not written as the null that means absent. -/
theorem fieldOr_nullable_map_iff {value : Option α} :
    fieldOr none (nullable read) (value.map write) = some value ↔
      ∀ a, value = some a → write a ≠ .null ∧ read (write a) = some a := by
  cases value with
  | none => simp [fieldOr]
  | some a =>
      simp only [Option.map_some, fieldOr, Option.some.injEq, forall_eq']
      cases write a <;> simp [nullable]

theorem fieldOr_list?_iff {xs : List α} :
    fieldOr [] (list? read) (some (.array (xs.map write))) = some xs ↔
      ∀ x ∈ xs, read (write x) = some x := by
  rw [fieldOr, list?, mapM_map_eq_some_iff]

theorem fieldOr_list?_nonempty_iff {xs : List α} :
    fieldOr [] (list? read) (if xs.isEmpty then none else some (.array (xs.map write))) = some xs ↔
      ∀ x ∈ xs, read (write x) = some x := by
  cases xs with
  | nil => simp [fieldOr]
  | cons x xs => exact fieldOr_list?_iff

theorem wellFormed_recordMembers {fields : List (String × Option Json)}
    (h : ∀ field ∈ fields, ∀ value, field.2 = some value → value.WellFormed) :
    (Json.object (recordMembers fields)).WellFormed := by
  rw [WellFormed, membersWellFormed_iff]
  intro member hmember
  obtain ⟨field, hfield, hmember⟩ := List.mem_flatMap.1 hmember
  cases hvalue : field.2 with
  | none => simp [ItemDefinition.optionalMember, hvalue] at hmember
  | some value =>
      simp only [ItemDefinition.optionalMember, hvalue, List.mem_singleton] at hmember
      rw [hmember]
      exact h field hfield value hvalue

theorem exists_of_mem_fieldOr_list? {field : Option Json} {xs : List α}
    (h : fieldOr [] (list? read) field = some xs) : ∀ x ∈ xs, ∃ document, read document = some x := by
  cases field with
  | none =>
      cases h
      simp
  | some document =>
      cases document with
      | array elements => exact exists_of_mem_of_mapM h
      | _ => cases h

theorem exists_of_fieldOr_nullable {field : Option Json} {a : α}
    (h : fieldOr none (nullable read) field = some (some a)) :
    ∃ document, document ≠ .null ∧ read document = some a := by
  cases field with
  | none => cases h
  | some document =>
      cases document with
      | null => cases h
      | _ =>
          simp only [fieldOr, nullable, Option.map_eq_some_iff, Option.some.injEq,
            exists_eq_right] at h
          exact ⟨_, by simp, h⟩

end Json

/-! ## Choices -/

namespace DiscreteChoice

theorem ofJson?_eq_some_iff {document : Json} {choice : DiscreteChoice} :
    ofJson? document = some choice ↔
      ∃ label value, document.fields? keys = some [some label, some value] ∧
        label.text? = some choice.label ∧ Value.ofJson? value = some choice.value := by
  rw [ofJson?, Option.bind_eq_bind, Option.bind_eq_some_iff]
  constructor
  · rintro ⟨fields, hfields, hchoice⟩
    split at hchoice
    next label value =>
      simp only [Option.bind_eq_bind, Option.bind_eq_some_iff, Option.pure_def,
        Option.some.injEq] at hchoice
      obtain ⟨text, htext, v, hv, rfl⟩ := hchoice
      exact ⟨label, value, hfields, htext, hv⟩
    next => cases hchoice
  · rintro ⟨label, value, hfields, htext, hv⟩
    exact ⟨_, hfields, by simp [htext, hv]⟩

def fields (choice : DiscreteChoice) : List (String × Option Json) :=
  [("label", some (.string (some choice.label))), ("value", some choice.value.toJson)]

theorem fields?_toJson (choice : DiscreteChoice) :
    choice.toJson.fields? keys = some (choice.fields.map Prod.snd) := by
  have hnodup : (choice.fields.map Prod.fst).Nodup := show keys.Nodup by decide
  exact Json.fields?_recordMembers hnodup

theorem wellFormed_toJson (choice : DiscreteChoice) : choice.toJson.WellFormed :=
  ⟨trivial, choice.value.wellFormed_toJson, trivial⟩

theorem ofJson?_toJson_iff {choice : DiscreteChoice} :
    ofJson? choice.toJson = some choice ↔ ∀ x ∈ choice.value.floats, x.ReadsBack := by
  rw [ofJson?_eq_some_iff, fields?_toJson, ← Value.ofJson?_toJson_iff]
  simp [fields, Json.text?]

end DiscreteChoice

/-! ## Items -/

namespace ItemDefinition

def floats (d : ItemDefinition) : List Binary64 :=
  [d.default, d.min, d.max].flatMap (fun v? => v?.toList.flatMap Value.floats) ++
    d.discrete.flatMap fun choice => choice.value.floats

theorem ofJson?_eq_some_iff {document : Json} {d : ItemDefinition} :
    ofJson? document = some d ↔
      ∃ name type numberOfValues optional enabledByDefault default min max discrete index,
        document.fields? keys =
          some [some name, some type, numberOfValues, optional, enabledByDefault, default, min, max,
            discrete, index] ∧
        name.text? = some d.name ∧ ItemType.ofJson? type = some d.type ∧
        Json.fieldOr 1 Json.index? numberOfValues = some d.numberOfValues ∧
        Json.fieldOr false Json.bool? optional = some d.optional ∧
        Json.fieldOr false Json.bool? enabledByDefault = some d.enabledByDefault ∧
        Json.fieldOr none (Json.nullable Value.ofJson?) default = some d.default ∧
        Json.fieldOr none (Json.nullable Value.ofJson?) min = some d.min ∧
        Json.fieldOr none (Json.nullable Value.ofJson?) max = some d.max ∧
        Json.fieldOr [] (Json.list? DiscreteChoice.ofJson?) discrete = some d.discrete ∧
        Json.fieldOr none (Json.nullable Json.index?) index = some d.defaultDiscreteIndex := by
  rw [ofJson?, Option.bind_eq_bind, Option.bind_eq_some_iff]
  constructor
  · rintro ⟨fields, hfields, hd⟩
    split at hd
    next name type numberOfValues optional enabledByDefault default min max discrete index =>
      simp only [Option.bind_eq_bind, Option.bind_eq_some_iff, Option.pure_def,
        Option.some.injEq] at hd
      obtain ⟨_, hname, _, htype, _, hnumber, _, hoptional, _, henabled, _, hdefault, _, hmin, _,
        hmax, _, hdiscrete, _, hindex, rfl⟩ := hd
      exact ⟨name, type, numberOfValues, optional, enabledByDefault, default, min, max, discrete,
        index, hfields, hname, htype, hnumber, hoptional, henabled, hdefault, hmin, hmax, hdiscrete,
        hindex⟩
    next => cases hd
  · rintro ⟨name, type, numberOfValues, optional, enabledByDefault, default, min, max, discrete,
      index, hfields, hname, htype, hnumber, hoptional, henabled, hdefault, hmin, hmax, hdiscrete,
      hindex⟩
    exact ⟨_, hfields, by simp [hname, htype, hnumber, hoptional, henabled, hdefault, hmin, hmax,
      hdiscrete, hindex]⟩

/-- The fields that an item is written with; those that are left out have no value. -/
def fields (d : ItemDefinition) : List (String × Option Json) :=
  [("name", some (.string (some d.name))), ("type", some d.type.toJson),
    ("number_of_values", some (indexJson d.numberOfValues)), ("optional", some (.bool d.optional)),
    ("enabled_by_default", some (.bool d.enabledByDefault)),
    ("default", d.default.map Value.toJson), ("min", d.min.map Value.toJson),
    ("max", d.max.map Value.toJson),
    ("discrete",
      if d.discrete.isEmpty then none else some (.array (d.discrete.map DiscreteChoice.toJson))),
    ("default_discrete_index", d.defaultDiscreteIndex.map indexJson)]

theorem toJson_eq (d : ItemDefinition) : d.toJson = .object (Json.recordMembers d.fields) := by
  simp [toJson, Json.recordMembers, fields, optionalMember]

theorem fields?_toJson (d : ItemDefinition) :
    d.toJson.fields? keys = some (d.fields.map Prod.snd) := by
  have hnodup : (d.fields.map Prod.fst).Nodup := show keys.Nodup by decide
  rw [toJson_eq]
  exact Json.fields?_recordMembers hnodup

/-- What a text keeps of an item: finite floats, bounds and default other than null, and positions
that fit a word. -/
structure Storable (d : ItemDefinition) : Prop where
  finite : ∀ x ∈ d.floats, x.isFinite = true
  default_ne_null : d.default ≠ some .null
  min_ne_null : d.min ≠ some .null
  max_ne_null : d.max ≠ some .null
  numberOfValues_lt : d.numberOfValues < UInt64.size
  index_lt : ∀ n, d.defaultDiscreteIndex = some n → n < UInt64.size

theorem fieldOr_value_iff {v? : Option Value} :
    Json.fieldOr none (Json.nullable Value.ofJson?) (v?.map Value.toJson) = some v? ↔
      v? ≠ some .null ∧ ∀ x ∈ v?.toList.flatMap Value.floats, x.ReadsBack := by
  rw [Json.fieldOr_nullable_map_iff]
  cases v? with
  | none => simp
  | some v =>
      simp only [Option.some.injEq, forall_eq', Value.ofJson?_toJson_iff, Option.toList_some,
        List.flatMap_singleton, ne_eq]
      constructor
      · rintro ⟨hwritten, hfloats⟩
        refine ⟨?_, hfloats⟩
        rintro rfl
        exact hwritten rfl
      · rintro ⟨hv, hfloats⟩
        exact ⟨Value.toJson_ne_null hv fun x hx => Value.isFinite_of_readsBack (hfloats x hx),
          hfloats⟩

theorem fieldOr_index_iff {index : Option Nat} :
    Json.fieldOr none (Json.nullable Json.index?) (index.map indexJson) = some index ↔
      ∀ n, index = some n → n < UInt64.size := by
  rw [Json.fieldOr_nullable_map_iff]
  simp only [Json.index?_indexJson_iff]
  exact forall₂_congr fun n _ => and_iff_right nofun

theorem forall_floats_iff {p : Binary64 → Prop} {d : ItemDefinition} :
    (∀ x ∈ d.floats, p x) ↔
      (∀ x ∈ d.default.toList.flatMap Value.floats, p x) ∧
        (∀ x ∈ d.min.toList.flatMap Value.floats, p x) ∧
        (∀ x ∈ d.max.toList.flatMap Value.floats, p x) ∧
        ∀ choice ∈ d.discrete, ∀ x ∈ choice.value.floats, p x := by
  simp only [floats, List.flatMap_cons, List.flatMap_nil, List.append_nil, List.forall_mem_append,
    List.forall_mem_flatMap, and_assoc]

/-- An item is recovered from what is written of it exactly when it loses nothing there. -/
theorem ofJson?_toJson_iff {d : ItemDefinition} :
    ofJson? d.toJson = some d ↔ d.Storable ∧ ∀ x ∈ d.floats, x.ReadsBack := by
  rw [ofJson?_eq_some_iff, fields?_toJson]
  constructor
  · rintro ⟨_, _, _, _, _, _, _, _, _, _, hfields, -, -, hnumber, -, -, hdefault, hmin, hmax,
      hdiscrete, hindex⟩
    cases hfields
    obtain ⟨hdefault, hdefaults⟩ := fieldOr_value_iff.1 hdefault
    obtain ⟨hmin, hmins⟩ := fieldOr_value_iff.1 hmin
    obtain ⟨hmax, hmaxs⟩ := fieldOr_value_iff.1 hmax
    have hchoices : ∀ choice ∈ d.discrete, ∀ x ∈ choice.value.floats, x.ReadsBack :=
      fun choice hchoice => DiscreteChoice.ofJson?_toJson_iff.1
        (Json.fieldOr_list?_nonempty_iff.1 hdiscrete choice hchoice)
    have hfloats : ∀ x ∈ d.floats, x.ReadsBack :=
      forall_floats_iff.2 ⟨hdefaults, hmins, hmaxs, hchoices⟩
    have hfinite : ∀ x ∈ d.floats, x.isFinite = true :=
      fun x hx => Value.isFinite_of_readsBack (hfloats x hx)
    exact ⟨⟨hfinite, hdefault, hmin, hmax, Json.index?_indexJson_iff.1 hnumber,
      fieldOr_index_iff.1 hindex⟩, hfloats⟩
  · rintro ⟨h, hfloats⟩
    obtain ⟨hdefaults, hmins, hmaxs, hchoices⟩ := forall_floats_iff.1 hfloats
    refine ⟨_, _, _, _, _, _, _, _, _, _, rfl, rfl, ItemType.ofKeyword?_keyword d.type,
      Json.index?_indexJson_iff.2 h.numberOfValues_lt, rfl, rfl,
      fieldOr_value_iff.2 ⟨h.default_ne_null, hdefaults⟩,
      fieldOr_value_iff.2 ⟨h.min_ne_null, hmins⟩, fieldOr_value_iff.2 ⟨h.max_ne_null, hmaxs⟩,
      Json.fieldOr_list?_nonempty_iff.2 fun choice hchoice => ?_, fieldOr_index_iff.2 h.index_lt⟩
    exact DiscreteChoice.ofJson?_toJson_iff.2 (hchoices choice hchoice)

theorem finite_of_fieldOr_nullable {field : Option Json} {v? : Option Value}
    (h : Json.fieldOr none (Json.nullable Value.ofJson?) field = some v?) :
    v? ≠ some .null ∧ ∀ x ∈ v?.toList.flatMap Value.floats, x.isFinite = true := by
  cases v? with
  | none => simp
  | some v =>
      obtain ⟨document, hdocument, hv⟩ := Json.exists_of_fieldOr_nullable h
      refine ⟨fun hnull => Value.ofJson?_ne_null hdocument hv (Option.some.inj hnull), ?_⟩
      simpa using Value.ofJson?_finite hv

/-- Whatever is read as an item loses nothing when it is written, but for its floats. -/
theorem storable_of_ofJson? {document : Json} {d : ItemDefinition}
    (h : ofJson? document = some d) : d.Storable := by
  obtain ⟨_, _, _, _, _, _, _, _, _, _, -, -, -, hnumber, -, -, hdefault, hmin, hmax, hdiscrete,
    hindex⟩ := ofJson?_eq_some_iff.1 h
  obtain ⟨hdefault, hdefaults⟩ := finite_of_fieldOr_nullable hdefault
  obtain ⟨hmin, hmins⟩ := finite_of_fieldOr_nullable hmin
  obtain ⟨hmax, hmaxs⟩ := finite_of_fieldOr_nullable hmax
  have hchoices : ∀ choice ∈ d.discrete, ∀ x ∈ choice.value.floats, x.isFinite = true := by
    intro choice hchoice
    obtain ⟨document, hread⟩ := Json.exists_of_mem_fieldOr_list? hdiscrete choice hchoice
    obtain ⟨_, _, -, -, hvalue⟩ := DiscreteChoice.ofJson?_eq_some_iff.1 hread
    exact Value.ofJson?_finite hvalue
  refine ⟨forall_floats_iff.2 ⟨hdefaults, hmins, hmaxs, hchoices⟩, hdefault, hmin, hmax,
    Json.lt_of_fieldOr_index? hnumber, fun n hn => ?_⟩
  rw [hn] at hindex
  obtain ⟨document, -, hread⟩ := Json.exists_of_fieldOr_nullable hindex
  exact Json.index?_lt hread

theorem wellFormed_toJson (d : ItemDefinition) : d.toJson.WellFormed := by
  have hchoices : (Json.array (d.discrete.map DiscreteChoice.toJson)).WellFormed := by
    rw [Json.WellFormed, Json.elementsWellFormed_iff, List.forall_mem_map]
    exact fun choice _ => choice.wellFormed_toJson
  rw [toJson_eq]
  refine Json.wellFormed_recordMembers ?_
  simp only [fields, List.forall_mem_cons, Option.some.injEq, forall_eq', Option.map_eq_some_iff,
    forall_exists_index, and_imp, forall_apply_eq_imp_iff₂, Option.ite_none_left_eq_some]
  exact ⟨trivial, trivial, NumberLiteral.wellFormed_ofInt _, trivial, trivial,
    fun v _ => v.wellFormed_toJson, fun v _ => v.wellFormed_toJson,
    fun v _ => v.wellFormed_toJson, fun _ _ hwritten => hwritten ▸ hchoices,
    fun _ _ => NumberLiteral.wellFormed_ofInt _, nofun⟩

end ItemDefinition

/-! ## Definitions -/

namespace Definition

def floats (d : Definition) : List Binary64 := d.items.flatMap ItemDefinition.floats

/-- What a text keeps of a definition: items whose names are distinct. -/
structure Storable (d : Definition) : Prop where
  nodup_names : (d.items.map ItemDefinition.name).Nodup
  items : ∀ item ∈ d.items, item.Storable

theorem ofJson?_eq_some_iff {document : Json} {d : Definition} :
    ofJson? document = some d ↔
      ∃ name items, document.fields? keys = some [some name, items] ∧
        name.text? = some d.name ∧
        Json.fieldOr [] (Json.list? ItemDefinition.ofJson?) items = some d.items := by
  rw [ofJson?, Option.bind_eq_bind, Option.bind_eq_some_iff]
  constructor
  · rintro ⟨fields, hfields, hd⟩
    split at hd
    next name items =>
      simp only [Option.bind_eq_bind, Option.bind_eq_some_iff, Option.pure_def,
        Option.some.injEq] at hd
      obtain ⟨text, htext, read, hread, rfl⟩ := hd
      exact ⟨name, items, hfields, htext, hread⟩
    next => cases hd
  · rintro ⟨name, items, hfields, hname, hitems⟩
    exact ⟨_, hfields, by simp [hname, hitems]⟩

def fields (d : Definition) : List (String × Option Json) :=
  [("name", some (.string (some d.name))),
    ("items", some (.array (d.items.map ItemDefinition.toJson)))]

theorem fields?_toJson (d : Definition) :
    d.toJson.fields? keys = some (d.fields.map Prod.snd) := by
  have hnodup : (d.fields.map Prod.fst).Nodup := show keys.Nodup by decide
  exact Json.fields?_recordMembers hnodup

theorem wellFormed_toJson (d : Definition) : d.toJson.WellFormed := by
  have hitems : (Json.array (d.items.map ItemDefinition.toJson)).WellFormed := by
    rw [Json.WellFormed, Json.elementsWellFormed_iff, List.forall_mem_map]
    exact fun item _ => item.wellFormed_toJson
  exact ⟨trivial, hitems, trivial⟩

theorem ofJson?_toJson_iff {d : Definition} :
    ofJson? d.toJson = some d ↔ ∀ item ∈ d.items, item.Storable ∧ ∀ x ∈ item.floats, x.ReadsBack := by
  simp only [← ItemDefinition.ofJson?_toJson_iff]
  rw [ofJson?_eq_some_iff, fields?_toJson, ← Json.fieldOr_list?_iff]
  constructor
  · rintro ⟨_, _, hfields, -, hitems⟩
    cases hfields
    exact hitems
  · intro hitems
    exact ⟨_, _, rfl, rfl, hitems⟩

theorem ofJsonText_eq_ok_iff {text : String} {d : Definition} :
    ofJsonText text = .ok d ↔
      (Json.parse? text).bind ofJson? = some d ∧ (d.items.map ItemDefinition.name).Nodup := by
  rw [ofJsonText]
  cases (Json.parse? text).bind ofJson? with
  | none => simp
  | some read =>
      simp only [Outcomes.bind_eq_ok_iff, Outcomes.pure_eq_ok_iff, Option.some.injEq]
      constructor
      · rintro ⟨_, hnames, rfl⟩
        exact ⟨rfl, checkNames_eq_ok_iff.1 hnames⟩
      · rintro ⟨rfl, hnames⟩
        exact ⟨(), checkNames_eq_ok_iff.2 hnames, rfl⟩

theorem storable_of_ofJsonText {text : String} {d : Definition} (h : ofJsonText text = .ok d) :
    d.Storable := by
  obtain ⟨hread, hnames⟩ := ofJsonText_eq_ok_iff.1 h
  obtain ⟨document, -, hd⟩ := Option.bind_eq_some_iff.1 hread
  obtain ⟨_, _, -, -, hitems⟩ := ofJson?_eq_some_iff.1 hd
  refine ⟨hnames, fun item hitem => ?_⟩
  obtain ⟨part, hpart⟩ := Json.exists_of_mem_fieldOr_list? hitems item hitem
  exact ItemDefinition.storable_of_ofJson? hpart

/-- A definition reads back from its text exactly when it loses nothing there. -/
theorem ofJsonText_jsonText_iff {d : Definition} :
    ofJsonText d.jsonText = .ok d ↔ d.Storable ∧ ∀ x ∈ d.floats, x.ReadsBack := by
  rw [ofJsonText_eq_ok_iff, jsonText, Json.parse?_pretty d.wellFormed_toJson, Option.bind_some,
    ofJson?_toJson_iff, floats, List.forall_mem_flatMap]
  constructor
  · rintro ⟨hitems, hnames⟩
    exact ⟨⟨hnames, fun item hitem => (hitems item hitem).1⟩, fun item hitem => (hitems item hitem).2⟩
  · rintro ⟨⟨hnames, hitems⟩, hfloats⟩
    exact ⟨fun item hitem => ⟨hitems item hitem, hfloats item hitem⟩, hnames⟩

/-- Writing a definition and reading it again gives the definition, exactly for those that a text
keeps and whose floats the reader of numbers recovers. Reading gives only definitions that a text
keeps, so that one that was read once is read again, the same floats provided. -/
theorem json_roundTrip_exact :
    (∀ d : Definition,
      ofJsonText d.jsonText = .ok d ↔ d.Storable ∧ ∀ x ∈ d.floats, x.ReadsBack) ∧
    (∀ text d, ofJsonText text = .ok d → d.Storable) ∧
    (∀ text d, ofJsonText text = .ok d → (∀ x ∈ d.floats, x.ReadsBack) →
      ofJsonText d.jsonText = .ok d) := by
  refine ⟨fun d => ofJsonText_jsonText_iff, fun text d h => storable_of_ofJsonText h,
    fun text d h hfloats => ?_⟩
  exact ofJsonText_jsonText_iff.2 ⟨storable_of_ofJsonText h, hfloats⟩

/-- Floats by their places: a half, a tenth, 10^23, which is written with an exponent, and minus
zero. -/
def half : Binary64 := .finite false ⟨4602678819172646912, by decide⟩

def tenth : Binary64 := .finite false ⟨4591870180066957722, by decide⟩

def large : Binary64 := .finite false ⟨4950912855330343670, by decide⟩

def minusZero : Binary64 := .finite true .zero

def console : Definition where
  name := "console \"\u03b1\"\n"
  items := [
    { name := "gain", type := .double, numberOfValues := 3, default := some (.float half),
      min := some (.float minusZero), max := some (.float large) },
    { name := "mode", type := .string, optional := true, enabledByDefault := true,
      discrete := [⟨"off", .null⟩, ⟨"\\\t\x01", .float tenth⟩, ⟨"", .string "on"⟩, ⟨"last", .int 9223372036854775807⟩],
      defaultDiscreteIndex := some 2 }]

/-- A definition that is read from a text in another form than it is written in. -/
def fader : Definition where
  name := "fader"
  items := [{ name := "level", type := .double, numberOfValues := 2, default := some (.float half) }]

theorem json_roundTrip_exact_console :
    ofJsonText console.jsonText = .ok console ∧
    (ofJsonText "[\"fader\", [[\"level\", \"double\", 2, false, false, 5e-1]]]" = .ok fader ∧
      fader.Storable ∧ ofJsonText fader.jsonText = .ok fader) := by
  have hconsole : console.Storable :=
    ⟨by decide, fun item hitem => by
      rcases List.mem_pair.1 hitem with rfl | rfl
      · exact ⟨by decide, by decide, by decide, by decide, by decide, by decide⟩
      · exact ⟨by decide, by decide, by decide, by decide, by decide, by decide⟩⟩
  have hread : ofJsonText "[\"fader\", [[\"level\", \"double\", 2, false, false, 5e-1]]]" =
      .ok fader := by decide +kernel
  refine ⟨(json_roundTrip_exact.1 console).2 ⟨hconsole, by decide +kernel⟩, hread,
    json_roundTrip_exact.2.1 _ fader hread, json_roundTrip_exact.2.2 _ fader hread ?_⟩
  decide +kernel

end Definition

end MethodSynthesis
