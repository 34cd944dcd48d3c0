import MethodSynthesis.Proofs.JsonDocuments
import MethodSynthesis.Text.CharRanges

/-!
# Texts of scalars

A scalar is read from the start of a text exactly when the text starts with one of the texts of the
scalar and goes on with nothing that belongs to a number. A number has several texts, and a string
many: each of its characters may stand as it is or be escaped. Whatever the reader takes away is
one of these texts, and each of them is taken away as a whole.
-/

namespace MethodSynthesis

/-! ## Numbers -/

namespace NumberLiteral

theorem readDigits?_eq_some {text digits rest : List Char}
    (h : readDigits? text = some (digits, rest)) : IsDigits digits ∧ text = digits ++ rest := by
  by_cases hempty : (text.takeWhile Char.isDigit).isEmpty = true
  · simp [readDigits?, spanDigits, hempty] at h
  · have hne : text.takeWhile Char.isDigit ≠ [] := by simpa using hempty
    simp only [readDigits?, spanDigits, hempty, Bool.false_eq_true, if_false] at h
    cases h
    exact ⟨⟨hne, fun c hc => List.mem_takeWhile_imp hc⟩,
      List.takeWhile_append_dropWhile.symm⟩

theorem signText_append_readSign (text : List Char) :
    text = Binary64.signText (readSign text).1 ++ (readSign text).2 := by
  cases text with
  | nil => rfl
  | cons c text =>
      by_cases hc : c = '-'
      · subst hc
        rfl
      · simp [readSign, hc, Binary64.signText]

theorem readWhole?_eq_some {text whole rest : List Char}
    (h : readWhole? text = some (whole, rest)) :
    IsDigits whole ∧ (whole.head? = some '0' → whole.length = 1) ∧ text = whole ++ rest := by
  unfold readWhole? at h
  split at h
  · cases h
  · rename_i digits behind hread
    obtain ⟨hdigits, htext⟩ := readDigits?_eq_some hread
    split at h
    · cases h
    · rename_i hzero
      cases h
      refine ⟨hdigits, fun hhead => ?_, htext⟩
      have hpositive := List.length_pos_iff.mpr hdigits.ne_nil
      simp only [hhead, decide_true, Bool.true_and, decide_eq_true_eq] at hzero
      omega

theorem readFraction?_eq_some {text rest : List Char} {fraction : Option (List Char)}
    (h : readFraction? text = some (fraction, rest)) :
    (∀ digits, fraction = some digits → IsDigits digits) ∧
      text = fractionPart fraction ++ rest := by
  cases text with
  | nil =>
      cases h
      exact ⟨nofun, rfl⟩
  | cons c text =>
      by_cases hc : c = '.'
      · subst hc
        simp only [readFraction?, if_true, Option.map_eq_some_iff, Prod.exists] at h
        obtain ⟨digits, behind, hread, heq⟩ := h
        cases heq
        obtain ⟨hdigits, rfl⟩ := readDigits?_eq_some hread
        refine ⟨fun other hother => ?_, rfl⟩
        cases hother
        exact hdigits
      · simp only [readFraction?, if_neg hc] at h
        cases h
        exact ⟨nofun, rfl⟩

theorem exponentSign_readExponentSign (text : List Char) :
    ∃ sign, ExponentSign sign (readExponentSign text).1 ∧
      text = sign ++ (readExponentSign text).2 := by
  cases text with
  | nil => exact ⟨[], .absent, rfl⟩
  | cons c text =>
      by_cases hminus : c = '-'
      · subst hminus
        exact ⟨['-'], .minus, rfl⟩
      · by_cases hplus : c = '+'
        · subst hplus
          exact ⟨['+'], .plus, rfl⟩
        · rw [readExponentSign, if_neg hminus, if_neg hplus]
          exact ⟨[], .absent, rfl⟩

theorem readExponent?_eq_some {text rest : List Char} {exponent : Option Int}
    (h : readExponent? text = some (exponent, rest)) :
    ∃ written, ExponentText written exponent ∧ text = written ++ rest := by
  cases text with
  | nil =>
      cases h
      exact ⟨[], .absent, rfl⟩
  | cons c text =>
      by_cases hmark : (c = 'e' || c = 'E') = true
      · rw [readExponent?, if_pos hmark] at h
        simp only [Option.map_eq_some_iff, Prod.exists] at h
        obtain ⟨digits, behind, hread, heq⟩ := h
        cases heq
        obtain ⟨sign, hsign, htext⟩ := exponentSign_readExponentSign text
        obtain ⟨hdigits, hrest⟩ := readDigits?_eq_some hread
        rw [hrest, ← List.append_assoc] at htext
        exact ⟨_, .written (by simpa using hmark) hsign hdigits, congrArg (List.cons c) htext⟩
      · rw [readExponent?, if_neg hmark] at h
        cases h
        exact ⟨[], .absent, rfl⟩

theorem exists_numberText_of_read? {text rest : List Char} {n : NumberLiteral}
    (h : read? text = some (n, rest)) : ∃ written, n.NumberText written ∧ text = written ++ rest := by
  simp only [read?, Option.bind_eq_bind, Option.bind_eq_some_iff, Prod.exists] at h
  obtain ⟨whole, behindWhole, hwhole, fraction, behindFraction, hfraction, exponent, behind,
    hexponent, heq⟩ := h
  cases heq
  obtain ⟨hdigits, hzero, hsigned⟩ := readWhole?_eq_some hwhole
  obtain ⟨hfractionDigits, rfl⟩ := readFraction?_eq_some hfraction
  obtain ⟨written, hwritten, rfl⟩ := readExponent?_eq_some hexponent
  refine ⟨_, ⟨⟨hdigits, hzero, hfractionDigits⟩, written, hwritten, rfl⟩, ?_⟩
  have hsign := signText_append_readSign text
  rw [hsigned] at hsign
  simpa using hsign

end NumberLiteral

/-! ## Strings -/

namespace Json

open NumberLiteral (LiteralEnd)
open Text (forall_below)

/-- What stands for one character or surrogate each, character by character and escape by escape. -/
inductive PieceTexts : List Char → List Piece → Prop
  | nil : PieceTexts [] []
  | plain {c : Char} {body : List Char} {pieces : List Piece} (hquote : c ≠ '"') (hescape : c ≠ '\\')
      (hcontrol : 32 ≤ c.toNat) (h : PieceTexts body pieces) :
      PieceTexts (c :: body) (.scalar c :: pieces)
  | short {letter c : Char} {body : List Char} {pieces : List Piece}
      (hletter : escapedChar? letter = some c) (h : PieceTexts body pieces) :
      PieceTexts ('\\' :: letter :: body) (.scalar c :: pieces)
  | numeric {a b c d : Char} {code : Nat} {body : List Char} {pieces : List Piece}
      (hcode : hexCode? a b c d = some code) (h : PieceTexts body pieces) :
      PieceTexts ('\\' :: 'u' :: a :: b :: c :: d :: body) (Piece.ofCode code :: pieces)

theorem ne_u_of_escapedChar? {letter c : Char} (h : escapedChar? letter = some c) :
    letter ≠ 'u' := by
  rintro rfl
  cases h

theorem readPieces?_append {body : List Char} {pieces : List Piece} (h : PieceTexts body pieces)
    (rest : List Char) : readPieces? (body ++ '"' :: rest) = some (pieces, rest) := by
  induction h with
  | nil => exact readPieces?_quote rest
  | plain hquote hescape hcontrol h ih =>
      rw [List.cons_append, readPieces?_plain _ hquote hescape hcontrol, ih]
      rfl
  | short hletter h ih =>
      rw [List.cons_append, List.cons_append, readPieces?_short _ (ne_u_of_escapedChar? hletter)
        hletter, ih]
      rfl
  | numeric hcode h ih =>
      simp only [List.cons_append]
      rw [readPieces?_numeric _ hcode, ih]
      rfl

theorem exists_pieceTexts_of_readPieces? {text rest : List Char} {pieces : List Piece}
    (h : readPieces? text = some (pieces, rest)) :
    ∃ body, PieceTexts body pieces ∧ text = body ++ '"' :: rest := by
  fun_induction readPieces? text generalizing pieces rest
  case case2 =>
    cases h
    exact ⟨[], .nil, rfl⟩
  case case4 a b c d text code more behind hread hcode hescape ih =>
    cases h
    obtain ⟨body, hbody, rfl⟩ := ih hread
    exact ⟨_, .numeric hcode hbody, rfl⟩
  case case7 letter text hnumeric c more behind hread hletter hescape ih =>
    cases h
    obtain ⟨body, hbody, rfl⟩ := ih hread
    exact ⟨_, .short hletter hbody, rfl⟩
  case case10 c text hquote hescape hcontrol more behind hread ih =>
    cases h
    obtain ⟨body, hbody, rfl⟩ := ih hread
    exact ⟨_, .plain hquote hescape (by omega) hbody, rfl⟩
  all_goals cases h

/-- What stands between the quotes of a string spells its characters: each as it is, or by a short
escape, by the escape of its code, or by the escapes of two surrogates. -/
inductive Spells : List Char → List Char → Prop
  | nil : Spells [] []
  | plain {c : Char} {body text : List Char} (hquote : c ≠ '"') (hescape : c ≠ '\\')
      (hcontrol : 32 ≤ c.toNat) (h : Spells body text) : Spells (c :: body) (c :: text)
  | short {letter c : Char} {body text : List Char} (hletter : escapedChar? letter = some c)
      (h : Spells body text) : Spells ('\\' :: letter :: body) (c :: text)
  | code {a b c d : Char} {code : Nat} {body text : List Char}
      (hcode : hexCode? a b c d = some code) (hscalar : ¬(0xD800 ≤ code ∧ code < 0xE000))
      (h : Spells body text) :
      Spells ('\\' :: 'u' :: a :: b :: c :: d :: body) (Char.ofNat code :: text)
  | surrogates {a b c d e f g i x : Char} {high low : Nat} {body text : List Char}
      (hhigh : hexCode? a b c d = some high) (hlow : hexCode? e f g i = some low)
      (hpair : surrogatePair? high low = some x) (h : Spells body text) :
      Spells ('\\' :: 'u' :: a :: b :: c :: d :: '\\' :: 'u' :: e :: f :: g :: i :: body) (x :: text)

theorem ofCode_of_surrogatePair? {high low : Nat} {x : Char}
    (h : surrogatePair? high low = some x) :
    Piece.ofCode high = .surrogate high ∧ Piece.ofCode low = .surrogate low := by
  unfold surrogatePair? at h
  split at h
  · rw [Piece.ofCode, Piece.ofCode, if_pos (by omega), if_pos (by omega)]
    exact ⟨rfl, rfl⟩
  · cases h

theorem exists_pieceTexts_of_spells {body text : List Char} (h : Spells body text) :
    ∃ pieces, PieceTexts body pieces ∧ spell? pieces = some text := by
  induction h with
  | nil => exact ⟨[], .nil, rfl⟩
  | plain hquote hescape hcontrol h ih =>
      obtain ⟨pieces, hpieces, hspell⟩ := ih
      exact ⟨_, .plain hquote hescape hcontrol hpieces, by rw [spell?, hspell]; rfl⟩
  | short hletter h ih =>
      obtain ⟨pieces, hpieces, hspell⟩ := ih
      exact ⟨_, .short hletter hpieces, by rw [spell?, hspell]; rfl⟩
  | code hcode hscalar h ih =>
      obtain ⟨pieces, hpieces, hspell⟩ := ih
      exact ⟨_, .numeric hcode hpieces, by rw [Piece.ofCode, if_neg hscalar, spell?, hspell]; rfl⟩
  | surrogates hhigh hlow hpair h ih =>
      obtain ⟨pieces, hpieces, hspell⟩ := ih
      obtain ⟨hfirst, hsecond⟩ := ofCode_of_surrogatePair? hpair
      refine ⟨_, .numeric hhigh (.numeric hlow hpieces), ?_⟩
      rw [hfirst, hsecond, spell?, hpair, hspell]

theorem pieceTexts_surrogate {body : List Char} {code : Nat} {pieces : List Piece}
    (h : PieceTexts body (.surrogate code :: pieces)) :
    ∃ a b c d rest, body = '\\' :: 'u' :: a :: b :: c :: d :: rest ∧
      hexCode? a b c d = some code ∧ PieceTexts rest pieces := by
  generalize hall : Piece.surrogate code :: pieces = all at h
  cases h with
  | nil => cases hall
  | plain => cases hall
  | short => cases hall
  | @numeric a b c d other body pieces hcode h =>
      obtain ⟨hpiece, rfl⟩ := List.cons.inj hall
      unfold Piece.ofCode at hpiece
      split at hpiece
      · cases hpiece
        exact ⟨a, b, c, d, body, rfl, hcode, h⟩
      · cases hpiece

theorem pieceTexts_scalar {body : List Char} {x : Char} {pieces : List Piece}
    (h : PieceTexts body (.scalar x :: pieces)) :
    ∃ rest, PieceTexts rest pieces ∧ ∀ text, Spells rest text → Spells body (x :: text) := by
  generalize hall : Piece.scalar x :: pieces = all at h
  cases h with
  | nil => cases hall
  | plain hquote hescape hcontrol h =>
      cases hall
      exact ⟨_, h, fun text htext => .plain hquote hescape hcontrol htext⟩
  | short hletter h =>
      cases hall
      exact ⟨_, h, fun text htext => .short hletter htext⟩
  | @numeric a b c d code body pieces hcode h =>
      obtain ⟨hpiece, rfl⟩ := List.cons.inj hall
      unfold Piece.ofCode at hpiece
      split at hpiece
      · cases hpiece
      · rename_i hscalar
        cases hpiece
        exact ⟨_, h, fun text htext => .code hcode hscalar htext⟩

theorem spells_of_pieceTexts {body text : List Char} {pieces : List Piece}
    (h : PieceTexts body pieces) (hspell : spell? pieces = some text) : Spells body text := by
  fun_induction spell? pieces generalizing body text
  case case1 =>
    cases hspell
    cases h
    exact .nil
  case case2 c pieces ih =>
    obtain ⟨text, hspelled, rfl⟩ := Option.map_eq_some_iff.mp hspell
    obtain ⟨rest, hrest, hspells⟩ := pieceTexts_scalar h
    exact hspells text (ih hrest hspelled)
  case case5 high low pieces c text hpieces hpair ih =>
    cases hspell
    obtain ⟨_, _, _, _, rest, rfl, hhigh, hrest⟩ := pieceTexts_surrogate h
    obtain ⟨_, _, _, _, rest, rfl, hlow, hrest⟩ := pieceTexts_surrogate hrest
    exact .surrogates hhigh hlow hpair (ih hrest hpieces)
  all_goals cases hspell

/-- A string is read from any text that spells it, up to its closing quote. -/
theorem readQuoted?_append {body text : List Char} (h : Spells body text) (rest : List Char) :
    readQuoted? (body ++ '"' :: rest) = some (some (String.ofList text), rest) := by
  obtain ⟨pieces, hpieces, hspell⟩ := exists_pieceTexts_of_spells h
  simp only [readQuoted?, readPieces?_append hpieces, Option.map_some, hspell]

theorem exists_spells_of_readQuoted? {text rest : List Char} {s : String}
    (h : readQuoted? text = some (some s, rest)) :
    ∃ body, Spells body s.toList ∧ text = body ++ '"' :: rest := by
  rw [readQuoted?, Option.map_eq_some_iff] at h
  obtain ⟨⟨pieces, behind⟩, hread, heq⟩ := h
  obtain ⟨hspell, rfl⟩ := Prod.mk.inj heq
  obtain ⟨spelled, hspelled, rfl⟩ := Option.map_eq_some_iff.mp hspell
  obtain ⟨body, hbody, rfl⟩ := exists_pieceTexts_of_readPieces? hread
  exact ⟨body, by simpa using spells_of_pieceTexts hbody hspelled, rfl⟩

/-! ## Scalars -/

/-- The texts of a scalar, where a string has to spell a text. -/
inductive ScalarText : List Char → Json → Prop
  | null : ScalarText "null".toList .null
  | bool (b : Bool) : ScalarText (if b then "true".toList else "false".toList) (.bool b)
  | number {text : List Char} {n : NumberLiteral} (h : n.NumberText text) :
      ScalarText text (.number n)
  | string {body text : List Char} (h : Spells body text) :
      ScalarText ('"' :: (body ++ ['"'])) (.string (some (String.ofList text)))

theorem readScalar?_append {text rest : List Char} {document : Json} (h : ScalarText text document)
    (hrest : LiteralEnd rest) : readScalar? (text ++ rest) = some (document, rest) := by
  cases h with
  | null => exact readScalar?_null rest
  | bool b =>
      cases b with
      | true => exact readScalar?_true rest
      | false => exact readScalar?_false rest
  | number h => exact readScalar?_number h hrest
  | string h => simp [readScalar?, readQuoted?_append h rest]

theorem expect?_eq_some {word text rest : List Char} (h : expect? word text = some rest) :
    text = word ++ rest := by
  induction word generalizing text with
  | nil =>
      cases h
      rfl
  | cons w word ih =>
      cases text with
      | nil => cases h
      | cons c text =>
          by_cases hc : w = c
          · subst hc
            rw [expect?, if_pos rfl] at h
            rw [ih h, List.cons_append]
          · rw [expect?, if_neg hc] at h
            cases h

/-- What is read as a scalar is one of its texts, unless it is a string that spells no text. -/
theorem exists_scalarText_of_readScalar? {text rest : List Char} {document : Json}
    (h : readScalar? text = some (document, rest)) (hspelled : document ≠ .string none) :
    ∃ written, ScalarText written document ∧ text = written ++ rest := by
  cases text with
  | nil => cases h
  | cons c text =>
      rw [readScalar?] at h
      split at h
      next hquote =>
        obtain ⟨⟨read, behind⟩, hread, heq⟩ := Option.map_eq_some_iff.mp h
        cases heq
        cases read with
        | none => exact absurd rfl hspelled
        | some s =>
            obtain ⟨body, hbody, rfl⟩ := exists_spells_of_readQuoted? hread
            have htext := ScalarText.string hbody
            rw [String.ofList_toList] at htext
            exact ⟨_, htext, by simp [hquote]⟩
      split at h
      next hnull =>
        obtain ⟨behind, hread, heq⟩ := Option.map_eq_some_iff.mp h
        cases heq
        exact ⟨_, .null, by rw [hnull, expect?_eq_some hread]; rfl⟩
      split at h
      next htrue =>
        obtain ⟨behind, hread, heq⟩ := Option.map_eq_some_iff.mp h
        cases heq
        exact ⟨_, .bool true, by rw [htrue, expect?_eq_some hread]; rfl⟩
      split at h
      next hfalse =>
        obtain ⟨behind, hread, heq⟩ := Option.map_eq_some_iff.mp h
        cases heq
        exact ⟨_, .bool false, by rw [hfalse, expect?_eq_some hread]; rfl⟩
      next =>
        obtain ⟨⟨n, behind⟩, hread, heq⟩ := Option.map_eq_some_iff.mp h
        cases heq
        obtain ⟨written, hwritten, htext⟩ := NumberLiteral.exists_numberText_of_read? hread
        exact ⟨written, .number hwritten, htext⟩

/-! ## Characters of the texts -/

theorem mem_of_exponentSign {sign : List Char} {negative : Bool}
    (h : NumberLiteral.ExponentSign sign negative) {c : Char} (hc : c ∈ sign) :
    c ∈ ['-', '+', '.', 'e', 'E'] := by
  cases h with
  | absent => cases hc
  | plus =>
      obtain rfl := List.mem_singleton.mp hc
      decide
  | minus =>
      obtain rfl := List.mem_singleton.mp hc
      decide

theorem isDigit_or_mem_of_numberText {n : NumberLiteral} {text : List Char}
    (h : n.NumberText text) {c : Char} (hc : c ∈ text) :
    c.isDigit = true ∨ c ∈ ['-', '+', '.', 'e', 'E'] := by
  obtain ⟨negative, whole, fraction, value⟩ := n
  obtain ⟨hparts, exponent, hexponent, rfl⟩ := h
  rcases List.mem_append.mp hc with hsign | hc
  · cases negative with
    | true =>
        obtain rfl := List.mem_singleton.mp hsign
        exact Or.inr (by decide)
    | false => cases hsign
  rcases List.mem_append.mp hc with hwhole | hc
  · exact Or.inl (hparts.whole.all_digit c hwhole)
  rcases List.mem_append.mp hc with hfraction | hbehind
  · cases fraction with
    | none => cases hfraction
    | some digits =>
        rcases List.mem_cons.mp hfraction with rfl | hmem
        · exact Or.inr (by decide)
        · exact Or.inl ((hparts.fraction digits rfl).all_digit c hmem)
  · cases hexponent with
    | absent => cases hbehind
    | written hmark hsign hdigits =>
        rcases List.mem_cons.mp hbehind with rfl | hbehind
        · rcases hmark with rfl | rfl <;> exact Or.inr (by decide)
        · rcases List.mem_append.mp hbehind with hmem | hmem
          · exact Or.inr (mem_of_exponentSign hsign hmem)
          · exact Or.inl (hdigits.all_digit c hmem)

theorem ne_of_hexValue? {c : Char} {n : Nat} (h : hexValue? c = some n) :
    32 ≤ c.toNat ∧ c ≠ '"' ∧ c ≠ '\\' := by
  refine ⟨?_, ?_, ?_⟩
  · by_contra hcontrol
    have hnone : hexValue? c = none :=
      forall_below (P := fun c => hexValue? c = none) (by decide) (Nat.not_le.mp hcontrol)
    rw [h] at hnone
    cases hnone
  · rintro rfl
    cases h
  · rintro rfl
    cases h

theorem forall_of_hexCode? {P : Char → Prop} {a b c d : Char} {code : Nat}
    (hcode : hexCode? a b c d = some code) (h : ∀ {x n}, hexValue? x = some n → P x) :
    P a ∧ P b ∧ P c ∧ P d := by
  simp only [hexCode?, Option.bind_eq_bind, Option.bind_eq_some_iff] at hcode
  obtain ⟨_, ha, _, hb, _, hc, _, hd, -⟩ := hcode
  exact ⟨h ha, h hb, h hc, h hd⟩

theorem le_toNat_of_escapedChar? {letter c : Char} (h : escapedChar? letter = some c) :
    32 ≤ letter.toNat := by
  by_contra hcontrol
  have hnone : escapedChar? letter = none :=
    forall_below (P := fun c => escapedChar? c = none) (by decide) (Nat.not_le.mp hcontrol)
  rw [h] at hnone
  cases hnone

theorem le_toNat_of_spells {body text : List Char} (h : Spells body text) :
    ∀ c ∈ body, 32 ≤ c.toNat := by
  have hescape : 32 ≤ '\\'.toNat ∧ 32 ≤ 'u'.toNat := by decide
  have hhex : ∀ {x n}, hexValue? x = some n → 32 ≤ x.toNat := fun h => (ne_of_hexValue? h).1
  induction h with
  | nil => simp
  | plain hquote hplain hcontrol h ih => exact List.forall_mem_cons.mpr ⟨hcontrol, ih⟩
  | short hletter h ih =>
      simp only [List.forall_mem_cons]
      exact ⟨hescape.1, le_toNat_of_escapedChar? hletter, ih⟩
  | code hcode hscalar h ih =>
      obtain ⟨ha, hb, hc, hd⟩ := forall_of_hexCode? (P := fun c => 32 ≤ c.toNat) hcode hhex
      simp only [List.forall_mem_cons]
      exact ⟨hescape.1, hescape.2, ha, hb, hc, hd, ih⟩
  | surrogates hhigh hlow hpair h ih =>
      obtain ⟨ha, hb, hc, hd⟩ := forall_of_hexCode? (P := fun c => 32 ≤ c.toNat) hhigh hhex
      obtain ⟨he, hf, hg, hi⟩ := forall_of_hexCode? (P := fun c => 32 ≤ c.toNat) hlow hhex
      simp only [List.forall_mem_cons]
      exact ⟨hescape.1, hescape.2, ha, hb, hc, hd, hescape.1, hescape.2, he, hf, hg, hi, ih⟩

theorem le_toNat_of_numberChar {c : Char} (h : c.isDigit = true ∨ c ∈ ['-', '+', '.', 'e', 'E']) :
    32 ≤ c.toNat := by
  rcases h with hdigit | hmem
  · by_contra hcontrol
    have hnone : c.isDigit = false :=
      forall_below (P := fun c => c.isDigit = false) (by decide) (Nat.not_le.mp hcontrol)
    rw [hdigit] at hnone
    cases hnone
  · have hall : ∀ c ∈ ['-', '+', '.', 'e', 'E'], 32 ≤ c.toNat := by simp
    exact hall c hmem

theorem ScalarText.le_toNat {text : List Char} {document : Json} (h : ScalarText text document) :
    ∀ c ∈ text, 32 ≤ c.toNat := by
  cases h with
  | null => simp
  | bool b => cases b <;> simp
  | number h => exact fun c hc => le_toNat_of_numberChar (isDigit_or_mem_of_numberText h hc)
  | string h =>
      have hbody := le_toNat_of_spells h
      simp only [List.forall_mem_cons, List.forall_mem_append]
      exact ⟨by decide, hbody, by simp⟩

theorem ScalarText.head {text : List Char} {document : Json} (h : ScalarText text document) :
    ∃ c rest, text = c :: rest ∧ isBlank c = false ∧ c ∉ ['[', ']', '\x7b'] := by
  cases h with
  | null => exact ⟨_, _, rfl, rfl, by decide⟩
  | bool b => cases b <;> exact ⟨_, _, rfl, rfl, by decide⟩
  | number h =>
      obtain ⟨c, rest, rfl, hc⟩ := numberText_head h
      exact ⟨c, rest, rfl, by simp [isBlank, ne_of_digit hc], by simp [ne_of_digit hc]⟩
  | string h => exact ⟨_, _, rfl, rfl, by decide⟩

theorem ScalarText.readsAs {text : List Char} {document : Json} (h : ScalarText text document) :
    ReadsAs readValue? text document := by
  have hread := fun rest (hrest : LiteralEnd rest) => readScalar?_append h hrest
  obtain ⟨c, more, rfl, hblank, hc⟩ := h.head
  simp only [List.mem_cons, List.not_mem_nil, or_false, not_or] at hc
  exact readsAs_of_readScalar? ⟨hblank, hc.1, hc.2.2⟩ hread

theorem scalarText_quoted (s : String) :
    ScalarText (quoted s.toList) (.string (some s)) := by
  have hread := readQuoted?_written s []
  obtain ⟨body, hbody, htext⟩ := exists_spells_of_readQuoted? hread
  have hchars : s.toList.flatMap escapeChar = body := List.append_cancel_right htext
  have hscalar := ScalarText.string hbody
  rw [String.ofList_toList] at hscalar
  rwa [quoted, hchars]

end Json

end MethodSynthesis
