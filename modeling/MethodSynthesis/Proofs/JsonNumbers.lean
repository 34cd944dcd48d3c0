import Mathlib.Data.List.DropRight
import MethodSynthesis.Json.Number

/-!
# Written numbers read back

A literal whose parts are runs of digits reads back as it is from every text that it can have, the one
that it is written as among them, when what follows cannot go on with it. The literals of integers
and of floats have such parts, and an integer of 64 bits is recovered from its literal. That a float
is recovered from its own literal does not follow: the reader rounds more than once.
-/

namespace MethodSynthesis

namespace NumberLiteral

structure IsDigits (digits : List Char) : Prop where
  ne_nil : digits ≠ []
  all_digit : ∀ c ∈ digits, c.isDigit = true

/-- The parts are those that a text of a literal can have. -/
structure WellFormed (n : NumberLiteral) : Prop where
  whole : IsDigits n.whole
  no_leading_zero : n.whole.head? = some '0' → n.whole.length = 1
  fraction : ∀ digits, n.fraction = some digits → IsDigits digits

def DigitsEnd (text : List Char) : Prop := ∀ c ∈ text.head?, c.isDigit = false

/-- A text that goes on with nothing that belongs to a literal. -/
def LiteralEnd (text : List Char) : Prop :=
  ∀ c ∈ text.head?, c.isDigit = false ∧ c ≠ '.' ∧ c ≠ 'e' ∧ c ≠ 'E'

theorem LiteralEnd.digitsEnd {text : List Char} (h : LiteralEnd text) : DigitsEnd text :=
  fun c hc => (h c hc).1

theorem digitsEnd_cons {c : Char} {text : List Char} (h : c.isDigit = false) :
    DigitsEnd (c :: text) := by
  rintro d ⟨⟩
  exact h

/-! ## Digits -/

theorem isDigits_toDigits (n : Nat) : IsDigits (Nat.toDigits 10 n) :=
  ⟨Nat.toDigits_ne_nil, fun _ hc => Nat.isDigit_of_mem_toDigits (by decide) (by decide) hc⟩

theorem IsDigits.append {digits more : List Char} (h : IsDigits digits)
    (hmore : ∀ c ∈ more, c.isDigit = true) : IsDigits (digits ++ more) := by
  refine ⟨by simp [h.ne_nil], fun c hc => ?_⟩
  rcases List.mem_append.1 hc with hc | hc
  · exact h.all_digit c hc
  · exact hmore c hc

theorem head?_toDigits_ne_zero {n : Nat} (h : n ≠ 0) :
    (Nat.toDigits 10 n).head? ≠ some '0' := by
  induction n using Nat.strongRecOn with
  | ind n ih =>
      rcases Nat.lt_or_ge n 10 with hsmall | hlarge
      · rw [Nat.toDigits_of_lt_base hsmall]
        simpa [Nat.digitChar_eq_zero] using h
      · rw [Nat.toDigits_of_base_le (by decide) hlarge,
          List.head?_append_of_ne_nil _ Nat.toDigits_ne_nil]
        exact ih (n / 10) (by omega) (by omega)

theorem readDigits?_append {digits rest : List Char} (h : IsDigits digits)
    (hrest : DigitsEnd rest) : readDigits? (digits ++ rest) = some (digits, rest) := by
  have htake : rest.takeWhile Char.isDigit = [] := by
    cases rest with
    | nil => rfl
    | cons c rest => simp [hrest c rfl]
  have hdrop : rest.dropWhile Char.isDigit = rest := by
    cases rest with
    | nil => rfl
    | cons c rest => simp [hrest c rfl]
  have hspan : spanDigits (digits ++ rest) = (digits, rest) := by
    rw [spanDigits, List.takeWhile_append_of_pos h.all_digit, List.dropWhile_append_of_pos h.all_digit,
      htake, hdrop, List.append_nil]
  simp [readDigits?, hspan, h.ne_nil]

/-! ## The parts of a literal -/

def fractionPart : Option (List Char) → List Char
  | none => []
  | some digits => '.' :: digits

def exponentPart : Option Int → List Char
  | none => []
  | some exponent => exponentChars exponent

theorem toChars_eq (n : NumberLiteral) :
    n.toChars = Binary64.signText n.negative ++
      (n.whole ++ (fractionPart n.fraction ++ exponentPart n.exponent)) := by
  obtain ⟨negative, whole, fraction, exponent⟩ := n
  cases fraction <;> cases exponent <;> simp [toChars, fractionPart, exponentPart]

inductive ExponentSign : List Char → Bool → Prop
  | absent : ExponentSign [] false
  | plus : ExponentSign ['+'] false
  | minus : ExponentSign ['-'] true

def exponentValue (negative : Bool) (digits : List Char) : Int :=
  let size : Int := Nat.ofDigitChars 10 digits 0
  if negative then -size else size

/-- The texts of an exponent: nothing, or a mark with digits that may have a sign. -/
inductive ExponentText : List Char → Option Int → Prop
  | absent : ExponentText [] none
  | written {mark : Char} {sign digits : List Char} {negative : Bool}
      (hmark : mark = 'e' ∨ mark = 'E') (hsign : ExponentSign sign negative)
      (hdigits : IsDigits digits) :
      ExponentText (mark :: (sign ++ digits)) (some (exponentValue negative digits))

/-- The texts of a literal, which differ in the way its exponent is written. -/
structure NumberText (n : NumberLiteral) (text : List Char) : Prop where
  wellFormed : n.WellFormed
  text_eq : ∃ exponent, ExponentText exponent n.exponent ∧
    text = Binary64.signText n.negative ++ (n.whole ++ (fractionPart n.fraction ++ exponent))

theorem exponentText_exponentPart (exponent : Option Int) :
    ExponentText (exponentPart exponent) exponent := by
  cases exponent with
  | none => exact .absent
  | some exponent =>
      have hsize : Nat.ofDigitChars 10 (Nat.toDigits 10 exponent.natAbs) 0 = exponent.natAbs :=
        Nat.ofDigitChars_ten_toDigits
      have hdigits := isDigits_toDigits exponent.natAbs
      by_cases hnegative : exponent < 0
      · have hvalue : exponentValue true (Nat.toDigits 10 exponent.natAbs) = exponent := by
          simp only [exponentValue, hsize, if_true]
          omega
        have htext := ExponentText.written (.inl rfl) .minus hdigits
        rw [hvalue] at htext
        simpa [exponentPart, exponentChars, hnegative] using htext
      · have hvalue : exponentValue false (Nat.toDigits 10 exponent.natAbs) = exponent := by
          simp only [exponentValue, hsize, Bool.false_eq_true, if_false]
          omega
        have htext := ExponentText.written (.inl rfl) .plus hdigits
        rw [hvalue] at htext
        simpa [exponentPart, exponentChars, hnegative] using htext

theorem numberText_toChars {n : NumberLiteral} (h : n.WellFormed) : n.NumberText n.toChars :=
  ⟨h, exponentPart n.exponent, exponentText_exponentPart n.exponent, toChars_eq n⟩

theorem readSign_signText (negative : Bool) {text : List Char} (h : text.head? ≠ some '-') :
    readSign (Binary64.signText negative ++ text) = (negative, text) := by
  cases negative with
  | true => rfl
  | false =>
      cases text with
      | nil => rfl
      | cons c text =>
          have hc : c ≠ '-' := fun hc => h (by simp [hc])
          simp [Binary64.signText, readSign, hc]

theorem readWhole?_append {n : NumberLiteral} {rest : List Char} (h : n.WellFormed)
    (hrest : DigitsEnd rest) : readWhole? (n.whole ++ rest) = some (n.whole, rest) := by
  rw [readWhole?, readDigits?_append h.whole hrest]
  by_cases hzero : n.whole.head? = some '0'
  · simp [h.no_leading_zero hzero]
  · simp [hzero]

theorem readFraction?_fractionPart {fraction : Option (List Char)} {rest : List Char}
    (h : ∀ digits, fraction = some digits → IsDigits digits) (hrest : DigitsEnd rest)
    (hpoint : ∀ c ∈ rest.head?, c ≠ '.') :
    readFraction? (fractionPart fraction ++ rest) = some (fraction, rest) := by
  cases fraction with
  | some digits => simp [fractionPart, readFraction?, readDigits?_append (h digits rfl) hrest]
  | none =>
      cases rest with
      | nil => rfl
      | cons c rest => simp [fractionPart, readFraction?, hpoint c rfl]

theorem IsDigits.head_cases {digits : List Char} (h : IsDigits digits) :
    ∃ c rest, digits = c :: rest ∧ c.isDigit = true := by
  obtain ⟨c, rest, rfl⟩ := List.exists_cons_of_ne_nil h.ne_nil
  exact ⟨c, rest, rfl, h.all_digit c List.mem_cons_self⟩

theorem readExponentSign_append {sign digits : List Char} {negative : Bool}
    (h : ExponentSign sign negative) (hdigits : IsDigits digits) (rest : List Char) :
    readExponentSign (sign ++ (digits ++ rest)) = (negative, digits ++ rest) := by
  obtain ⟨c, more, rfl, hc⟩ := hdigits.head_cases
  cases h with
  | absent =>
      have hminus : c ≠ '-' := by
        rintro rfl
        cases hc
      have hplus : c ≠ '+' := by
        rintro rfl
        cases hc
      simp [readExponentSign, hminus, hplus]
  | plus => rfl
  | minus => rfl

theorem readExponent?_append {text rest : List Char} {exponent : Option Int}
    (h : ExponentText text exponent) (hrest : LiteralEnd rest) :
    readExponent? (text ++ rest) = some (exponent, rest) := by
  cases h with
  | absent =>
      cases rest with
      | nil => rfl
      | cons c rest => simp [readExponent?, hrest c rfl]
  | @written mark sign digits negative hmark hsign hdigits =>
      have hsigned := readExponentSign_append hsign hdigits rest
      have hread := readDigits?_append hdigits hrest.digitsEnd
      have hmark' : (mark = 'e' || mark = 'E') = true := by simpa using hmark
      rw [List.cons_append, List.append_assoc, readExponent?, if_pos hmark', hsigned]
      simp only [hread, Option.map_some, exponentValue]

theorem head?_exponentText {text rest : List Char} {exponent : Option Int}
    (h : ExponentText text exponent) (hrest : LiteralEnd rest) :
    ∀ c ∈ (text ++ rest).head?, c.isDigit = false ∧ c ≠ '.' := by
  cases h with
  | absent => exact fun c hc => ⟨(hrest c hc).1, (hrest c hc).2.1⟩
  | written hmark hsign hdigits =>
      rintro c ⟨⟩
      rcases hmark with rfl | rfl <;> decide

/-! ## Reading a literal -/

/-- A literal is the longest one at the start of each of its texts. -/
theorem read?_append {n : NumberLiteral} {text rest : List Char} (h : n.NumberText text)
    (hrest : LiteralEnd rest) : read? (text ++ rest) = some (n, rest) := by
  obtain ⟨hparts, exponent, htext, rfl⟩ := h
  have hexponent : ∀ c ∈ (exponent ++ rest).head?, c.isDigit = false ∧ c ≠ '.' :=
    head?_exponentText htext hrest
  have hfraction : DigitsEnd (fractionPart n.fraction ++ (exponent ++ rest)) := by
    cases n.fraction with
    | none => exact fun c hc => (hexponent c hc).1
    | some digits => exact digitsEnd_cons rfl
  have hsign : (n.whole ++ (fractionPart n.fraction ++ (exponent ++ rest))).head? ≠ some '-' := by
    rw [List.head?_append_of_ne_nil _ hparts.whole.ne_nil]
    intro hminus
    exact absurd (hparts.whole.all_digit '-' (List.mem_of_head? hminus)) (by decide)
  rw [List.append_assoc, List.append_assoc, List.append_assoc, read?,
    readSign_signText n.negative hsign]
  simp only [readWhole?_append hparts hfraction,
    readFraction?_fractionPart hparts.fraction (fun c hc => (hexponent c hc).1)
      (fun c hc => (hexponent c hc).2),
    readExponent?_append htext hrest, Option.bind_eq_bind, Option.bind_some]

/-! ## The literal of an integer -/

theorem wellFormed_ofInt (i : Int) : (ofInt i).WellFormed := by
  refine ⟨isDigits_toDigits _, fun hzero => ?_, fun digits hdigits => by cases hdigits⟩
  by_cases hi : i.natAbs = 0
  · simp [ofInt, hi]
  · exact absurd hzero (head?_toDigits_ne_zero hi)

theorem size?_ofInt (i : Int) : (ofInt i).size? = some i.natAbs := by
  simp [ofInt, size?, Nat.ofDigitChars_ten_toDigits]

theorem int64?_ofInt (i : Int64) : (ofInt i.toInt).int64? = some i := by
  have hlow := i.le_toInt
  have hhigh := i.toInt_lt
  rw [int64?, size?_ofInt, Nat.one_shiftLeft]
  by_cases hnegative : i.toInt < 0
  · have hsize : (-(i.toInt.natAbs : Int)) = i.toInt := by omega
    have hin : 0 < i.toInt.natAbs ∧ i.toInt.natAbs ≤ 2 ^ 63 := by omega
    simp only [ofInt, hnegative, hin, hsize, decide_true, Bool.and_self, if_true, Int64.ofInt_toInt]
  · have hsize : (i.toInt.natAbs : Int) = i.toInt := by omega
    have hin : i.toInt.natAbs < 2 ^ 63 := by omega
    simp only [ofInt, hnegative, hin, decide_false, Bool.false_eq_true, if_false, if_true]
    rw [← Int64.ofInt_eq_ofNat, hsize, Int64.ofInt_toInt]

theorem index?_ofInt {n : Nat} (h : n < UInt64.size) : (ofInt n).index? = some n := by
  have hsign : ¬((n : Int) < 0) := by omega
  rw [index?, size?_ofInt]
  simp [ofInt, h, hsign]

/-! ## The literal of a float -/

theorem isDigits_zero : IsDigits ['0'] := by
  refine ⟨List.cons_ne_nil _ _, fun c hc => ?_⟩
  rw [List.mem_singleton.1 hc]
  rfl

theorem digits_spec {d : Decimal} (h : d.coefficient ≠ 0) :
    d.digits ≠ [] ∧ d.digits <+: Nat.toDigits 10 d.coefficient := by
  unfold Decimal.digits
  split
  next hnil =>
    -- Not every digit was dropped: the first one is no zero.
    have hzero : ∀ c ∈ Nat.toDigits 10 d.coefficient, c = '0' := by simpa using hnil
    obtain ⟨c, digits, hdigits⟩ :=
      List.exists_cons_of_ne_nil (Nat.toDigits_ne_nil (b := 10) (n := d.coefficient))
    have hhead := head?_toDigits_ne_zero h
    rw [hdigits] at hhead hzero
    exact absurd (congrArg some (hzero c List.mem_cons_self)) hhead
  next digits hne =>
    exact ⟨hne, List.rdropWhile_prefix (· == '0') (Nat.toDigits 10 d.coefficient)⟩

theorem isDigits_digits {d : Decimal} (h : d.coefficient ≠ 0) : IsDigits d.digits :=
  ⟨(digits_spec h).1, fun c hc =>
    (isDigits_toDigits d.coefficient).all_digit c ((digits_spec h).2.subset hc)⟩

theorem head?_digits_ne_zero {d : Decimal} (h : d.coefficient ≠ 0) :
    d.digits.head? ≠ some '0' := by
  obtain ⟨hne, tail, htail⟩ := digits_spec h
  have hhead := head?_toDigits_ne_zero h
  rwa [← htail, List.head?_append_of_ne_nil _ hne] at hhead

theorem all_isDigit_replicate (n : Nat) : ∀ c ∈ List.replicate n '0', c.isDigit = true := by
  intro c hc
  rw [List.eq_of_mem_replicate hc]
  rfl

theorem positional_spec (d : Decimal) :
    IsDigits d.positional.1 ∧
      (d.positional.1.head? = some '0' → d.positional.1.length = 1) ∧
      ∀ c ∈ d.positional.2, c.isDigit = true := by
  unfold Decimal.positional
  split
  next => exact ⟨isDigits_zero, fun _ => rfl, by simp⟩
  next hzero =>
    have hdigits := isDigits_digits hzero
    split
    next => 
      refine ⟨isDigits_zero, fun _ => rfl, fun c hc => ?_⟩
      rcases List.mem_append.1 hc with hc | hc
      · exact all_isDigit_replicate _ c hc
      · exact hdigits.all_digit c hc
    next hpoint => 
      have hne : d.digits.take d.point.toNat ≠ [] := by
        simp [hdigits.ne_nil]
        omega
      refine ⟨IsDigits.append ⟨hne, fun c hc => hdigits.all_digit c (List.mem_of_mem_take hc)⟩
        (all_isDigit_replicate _), fun hhead => ?_,
        fun c hc => hdigits.all_digit c (List.mem_of_mem_drop hc)⟩
      rw [List.head?_append_of_ne_nil _ hne, List.head?_take, if_neg (by omega)] at hhead
      exact absurd hhead (head?_digits_ne_zero hzero)

theorem ofMagnitude_positional {negative : Bool} {m : Magnitude}
    (h : (m.shortest tie).coefficient = 0 ∨ isPositional ((m.shortest tie).point - 1) = true) :
    ofMagnitude negative m =
      ⟨negative, (m.shortest tie).positional.1,
        some (if (m.shortest tie).positional.2.isEmpty then ['0']
          else (m.shortest tie).positional.2), none⟩ := by
  simp only [ofMagnitude]
  rw [if_pos (by simpa using h)]

theorem ofMagnitude_scientific {negative : Bool} {m : Magnitude}
    (h : ¬((m.shortest tie).coefficient = 0 ∨ isPositional ((m.shortest tie).point - 1) = true)) :
    ofMagnitude negative m =
      ⟨negative, (m.shortest tie).digits.take 1,
        if ((m.shortest tie).digits.drop 1).isEmpty then none
          else some ((m.shortest tie).digits.drop 1),
        some ((m.shortest tie).point - 1)⟩ := by
  simp only [ofMagnitude]
  rw [if_neg (by simpa using h)]

theorem wellFormed_ofMagnitude (negative : Bool) (m : Magnitude) :
    (ofMagnitude negative m).WellFormed := by
  by_cases h : (m.shortest tie).coefficient = 0 ∨ isPositional ((m.shortest tie).point - 1) = true
  · obtain ⟨hwhole, hlead, hfraction⟩ := positional_spec (m.shortest tie)
    rw [ofMagnitude_positional h]
    refine ⟨hwhole, hlead, fun digits hdigits => ?_⟩
    cases hdigits
    split
    next => exact isDigits_zero
    next hne => exact ⟨by simpa using hne, hfraction⟩
  · have hzero : (m.shortest tie).coefficient ≠ 0 := fun hzero => h (.inl hzero)
    have hdigits := isDigits_digits hzero
    rw [ofMagnitude_scientific h]
    refine ⟨⟨by simp [hdigits.ne_nil], fun c hc => hdigits.all_digit c (List.mem_of_mem_take hc)⟩,
      fun hhead => ?_, fun digits hfraction => ?_⟩
    · rw [List.head?_take, if_neg (by decide)] at hhead
      exact absurd hhead (head?_digits_ne_zero hzero)
    · split at hfraction
      next => cases hfraction
      next hne =>
        cases hfraction
        exact ⟨by simpa using hne, fun c hc => hdigits.all_digit c (List.mem_of_mem_drop hc)⟩

/-- The literal of a float is no integer: it has a fraction or an exponent. -/
theorem size?_ofMagnitude (negative : Bool) (m : Magnitude) :
    (ofMagnitude negative m).size? = none := by
  by_cases h : (m.shortest tie).coefficient = 0 ∨ isPositional ((m.shortest tie).point - 1) = true
  · rw [ofMagnitude_positional h, size?]
  · rw [ofMagnitude_scientific h, size?]
    simp

theorem int64?_ofMagnitude (negative : Bool) (m : Magnitude) :
    (ofMagnitude negative m).int64? = none := by
  rw [int64?, size?_ofMagnitude]

end NumberLiteral

end MethodSynthesis
