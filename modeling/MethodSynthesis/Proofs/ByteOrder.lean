import Mathlib.Data.List.Basic

/-!
# Texts in byte order

Texts are compared character by character. UTF-8 gives a greater character greater bytes, so the
comparison is that of the bytes, of which the first difference decides.
-/

namespace MethodSynthesis.Text

def utf8Bytes (text : String) : List UInt8 := text.toUTF8.data.toList

theorem utf8Bytes_eq_flatMap (text : String) :
    utf8Bytes text = text.toList.flatMap String.utf8EncodeChar := by
  rw [utf8Bytes, String.toUTF8_eq_toByteArray, ← String.utf8Encode_toList, List.utf8Encode,
    List.toList_data_toByteArray]

/-! ## Characters -/

theorem toNat_lt (c : Char) : c.val.toNat < 0x110000 := by
  rcases c.valid with hsmall | ⟨-, hlarge⟩
  · exact Nat.lt_trans hsmall (by decide)
  · exact hlarge

theorem ofNat_lt_ofNat_iff {x y : Nat} (hx : x < 256) (hy : y < 256) :
    UInt8.ofNat x < UInt8.ofNat y ↔ x < y := UInt8.ofNat_lt_iff_lt hx hy

theorem ofNat_eq_ofNat_iff {x y : Nat} (hx : x < 256) (hy : y < 256) :
    UInt8.ofNat x = UInt8.ofNat y ↔ x = y := by
  rw [← UInt8.toNat_inj, UInt8.toNat_ofNat_of_lt' hx, UInt8.toNat_ofNat_of_lt' hy]

/-- A continuation byte holds the last of the digits to base 64. -/
theorem div_lt_or_mod_lt {x y : Nat} (h : x < y) :
    x / 64 < y / 64 ∨ x / 64 = y / 64 ∧ x % 64 < y % 64 := by
  omega

/-- The bytes of a smaller character are smaller, whatever follows. The first byte grows with the
number of bytes; where they are as many, the first different digit decides. -/
theorem utf8EncodeChar_append_lt {c d : Char} (h : c < d) (after after' : List UInt8) :
    String.utf8EncodeChar c ++ after < String.utf8EncodeChar d ++ after' := by
  have hlt : c.val.toNat < d.val.toNat := h
  have hbound := toNat_lt d
  simp only [String.utf8EncodeChar]
  generalize c.val.toNat = x, d.val.toNat = y at *
  -- As quotients of quotients the digits are compared in turn, from the last one to the first.
  have hdigits : ∀ z, z / 4096 = z / 64 / 64 ∧ z / 262144 = z / 64 / 64 / 64 := by omega
  have hlast := div_lt_or_mod_lt hlt
  have hthird := @div_lt_or_mod_lt (x / 64) (y / 64)
  have hsecond := @div_lt_or_mod_lt (x / 64 / 64) (y / 64 / 64)
  split_ifs <;>
    simp (disch := omega) only [List.cons_append, List.nil_append, List.cons_lt_cons_iff,
      ofNat_lt_ofNat_iff, ofNat_eq_ofNat_iff, hdigits] <;>
    omega

/-! ## Texts -/

theorem flatMap_utf8EncodeChar_lt {front back : List Char} (h : front < back) :
    front.flatMap String.utf8EncodeChar < back.flatMap String.utf8EncodeChar := by
  induction front generalizing back with
  | nil =>
      cases back with
      | nil => exact absurd h (List.lt_irrefl _)
      | cons d back =>
          obtain ⟨first, rest, hbytes⟩ :=
            List.exists_cons_of_ne_nil (String.utf8EncodeChar_ne_nil (c := d))
          rw [List.flatMap_nil, List.flatMap_cons, hbytes, List.cons_append]
          exact List.nil_lt_cons first _
  | cons c front ih =>
      cases back with
      | nil => exact absurd h (List.not_lt_nil _)
      | cons d back =>
          rw [List.flatMap_cons, List.flatMap_cons]
          rcases List.cons_lt_cons_iff.mp h with hchar | ⟨rfl, hrest⟩
          · exact utf8EncodeChar_append_lt hchar _ _
          · exact List.append_left_lt (ih hrest)

theorem compare_eq_lt_iff_toList {s t : String} : compare s t = .lt ↔ s.toList < t.toList :=
  compareOfLessAndEq_eq_lt

/-- The order of texts is the order of their bytes. -/
theorem compare_eq_lt_iff {s t : String} : compare s t = .lt ↔ utf8Bytes s < utf8Bytes t := by
  rw [utf8Bytes_eq_flatMap, utf8Bytes_eq_flatMap]
  constructor
  · intro h
    exact flatMap_utf8EncodeChar_lt (compare_eq_lt_iff_toList.mp h)
  · intro h
    cases hcompare : compare s t with
    | lt => rfl
    | eq =>
        rw [Std.LawfulEqOrd.eq_of_compare hcompare] at h
        exact absurd h (List.lt_irrefl _)
    | gt =>
        have hlt : compare t s = .lt := Std.OrientedCmp.lt_of_gt hcompare
        exact absurd (flatMap_utf8EncodeChar_lt (compare_eq_lt_iff_toList.mp hlt))
          (List.lt_asymm h)

end MethodSynthesis.Text
