/-!
# Ranges of code points

A class of characters is given by the increasing list of its maximal ranges.
-/

namespace MethodSynthesis.Text

/-- Whether a code point lies in one of the ranges; later ranges lie higher, so the search stops at
the first range behind the code point. -/
def inRanges : List (Nat × Nat) → Nat → Bool
  | [], _ => false
  | (first, last) :: ranges, code =>
      if code < first then false else code ≤ last || inRanges ranges code

theorem forall_below {P : Char → Prop} {bound : Nat} (h : ∀ n < bound, P (Char.ofNat n)) {c : Char}
    (hc : c.toNat < bound) : P c := by
  have hof := h c.toNat hc
  rwa [Char.ofNat_toNat] at hof

end MethodSynthesis.Text
