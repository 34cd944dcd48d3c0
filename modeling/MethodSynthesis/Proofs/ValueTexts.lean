import MethodSynthesis.Proofs.JsonDocuments
import MethodSynthesis.Value.Json

/-!
# Written values read back

A value reads back from its text when it is no float: null, the booleans, every 64-bit integer and
every string. A float is never read as an integer, whatever its value, but the reader of numbers
rounds more than once and may end at a neighbour of the float that was written. Whether the reader
recovers a float is therefore a property of its own, which can be computed, and which no float has
that is not finite.
-/

namespace MethodSynthesis

def Json.binary64OfText? (text : String) : Option Binary64 :=
  match parse? text with
  | some (.number literal) => literal.binary64?
  | _ => none

namespace Binary64

/-- The text that the number is written as is read as the same number. -/
def ReadsBack (x : Binary64) : Prop := Json.binary64OfText? (Value.jsonText (.float x)) = some x

instance (x : Binary64) : Decidable x.ReadsBack := inferInstanceAs (Decidable (_ = _))

/-- Being finite is not enough, as for this float of the order of 10^195. -/
example : ¬(finite false ⟨7537946686629223753, by decide⟩).ReadsBack := by decide +kernel

end Binary64

namespace Value

def floats : Value → List Binary64
  | .float x => [x]
  | _ => []

theorem wellFormed_toJson (v : Value) : v.toJson.WellFormed := by
  cases v with
  | int i => exact NumberLiteral.wellFormed_ofInt i.toInt
  | float x =>
      cases x with
      | finite negative m => exact NumberLiteral.wellFormed_ofMagnitude negative m
      | nan => trivial
      | infinity negative => trivial
  | null => trivial
  | bool b => trivial
  | string s => trivial

theorem parse?_jsonText (v : Value) : Json.parse? v.jsonText = some v.toJson :=
  Json.parse?_pretty v.wellFormed_toJson

theorem readsBack_finite_iff {negative : Bool} {m : Magnitude} :
    (Binary64.finite negative m).ReadsBack ↔
      (NumberLiteral.ofMagnitude negative m).binary64? = some (.finite negative m) := by
  rw [Binary64.ReadsBack, Json.binary64OfText?, parse?_jsonText]
  rfl

theorem isFinite_of_readsBack {x : Binary64} (h : x.ReadsBack) : x.isFinite = true := by
  rw [Binary64.ReadsBack, Json.binary64OfText?, parse?_jsonText] at h
  cases x with
  | finite negative m => rfl
  | nan => cases h
  | infinity negative => cases h

theorem ofNumber?_ofMagnitude (negative : Bool) (m : Magnitude) :
    ofNumber? (NumberLiteral.ofMagnitude negative m) =
      (NumberLiteral.ofMagnitude negative m).binary64?.map .float := by
  rw [ofNumber?, NumberLiteral.int64?_ofMagnitude]

/-- A value is recovered from what is written of it, a float when the reader recovers it. -/
theorem ofJson?_toJson_iff {v : Value} :
    ofJson? v.toJson = some v ↔ ∀ x ∈ v.floats, x.ReadsBack := by
  cases v with
  | int i => simp [toJson, ofJson?, ofNumber?, NumberLiteral.int64?_ofInt, floats]
  | float x =>
      rw [floats, List.forall_mem_singleton]
      cases x with
      | finite negative m =>
          rw [readsBack_finite_iff, toJson, ofJson?, ofNumber?_ofMagnitude, Option.map_eq_some_iff]
          simp
      | nan => exact ⟨nofun, fun h => absurd (isFinite_of_readsBack h) nofun⟩
      | infinity negative => exact ⟨nofun, fun h => absurd (isFinite_of_readsBack h) nofun⟩
  | null => simp [toJson, ofJson?, floats]
  | bool b => simp [toJson, ofJson?, floats]
  | string s => simp [toJson, ofJson?, floats]

theorem toJson_ne_null {v : Value} (hv : v ≠ .null) (hfloats : ∀ x ∈ v.floats, x.isFinite = true) :
    v.toJson ≠ .null := by
  cases v with
  | float x =>
      cases x with
      | finite negative m => exact nofun
      | nan => exact absurd (hfloats .nan List.mem_cons_self) nofun
      | infinity negative => exact absurd (hfloats (.infinity negative) List.mem_cons_self) nofun
  | null => exact absurd rfl hv
  | bool b => exact nofun
  | int i => exact nofun
  | string s => exact nofun

theorem ofNumber?_finite {literal : NumberLiteral} {v : Value}
    (h : ofNumber? literal = some v) : v ≠ .null ∧ ∀ x ∈ v.floats, x.isFinite = true := by
  unfold ofNumber? at h
  split at h
  next i hi =>
    cases h
    simp [floats]
  next hnone =>
    rw [Option.map_eq_some_iff] at h
    obtain ⟨x, hx, rfl⟩ := h
    rw [NumberLiteral.binary64?, Option.map_eq_some_iff] at hx
    obtain ⟨m, -, rfl⟩ := hx
    simp [floats, Binary64.isFinite]

theorem ofJson?_finite {document : Json} {v : Value} (h : ofJson? document = some v) :
    ∀ x ∈ v.floats, x.isFinite = true := by
  cases document with
  | number literal => exact (ofNumber?_finite h).2
  | null => cases h; simp [floats]
  | bool b => cases h; simp [floats]
  | string text =>
      rw [ofJson?, Option.map_eq_some_iff] at h
      obtain ⟨s, -, rfl⟩ := h
      simp [floats]
  | array elements => cases h
  | object members => cases h

theorem ofJson?_ne_null {document : Json} {v : Value} (hdocument : document ≠ .null)
    (h : ofJson? document = some v) : v ≠ .null := by
  cases document with
  | number literal => exact (ofNumber?_finite h).1
  | null => exact absurd rfl hdocument
  | bool b => cases h; simp
  | string text =>
      rw [ofJson?, Option.map_eq_some_iff] at h
      obtain ⟨s, -, rfl⟩ := h
      simp
  | array elements => cases h
  | object members => cases h

end Value

end MethodSynthesis
