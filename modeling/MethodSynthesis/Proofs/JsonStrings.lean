import MethodSynthesis.Json.Quoted

/-!
# Written strings read back

What is written between quotes reads as the characters it was written for, whatever they are. Every
escape that is written stands for the character that it was written for, and no written character
ends the string or starts an escape of its own.
-/

namespace MethodSynthesis.Json

theorem hexCode?_hexDigit {n : Nat} (h : n < 32) :
    hexCode? '0' '0' (hexDigit (n / 16)) (hexDigit n) = some n := by
  have hall : ∀ m < 32, hexCode? '0' '0' (hexDigit (m / 16)) (hexDigit m) = some m := by decide
  exact hall n h

/-- A short escape letter stands for the character that has it, and is not that of the numeric
escape. -/
theorem escapedChar?_of_escapeLetter? {c letter : Char} (h : escapeLetter? c = some letter) :
    letter ≠ 'u' ∧ escapedChar? letter = some c := by
  have of_code {n : Nat} (hn : c.toNat = n) : c = Char.ofNat n := by rw [← hn, Char.ofNat_toNat]
  unfold escapeLetter? at h
  split at h
  next hquote => cases h; subst hquote; decide
  split at h
  next hslash => cases h; subst hslash; decide
  split at h
  next hbackspace => cases h; rw [of_code hbackspace]; decide
  split at h
  next hfeed => cases h; rw [of_code hfeed]; decide
  split at h
  next hline => cases h; subst hline; decide
  split at h
  next hreturn => cases h; subst hreturn; decide
  split at h
  next htab => cases h; subst htab; decide
  next => cases h

/-! ## One step of the reader -/

theorem readPieces?_quote (rest : List Char) : readPieces? ('"' :: rest) = some ([], rest) := by
  rw [readPieces?.eq_def]
  simp

theorem readPieces?_plain {c : Char} (rest : List Char) (hquote : c ≠ '"') (hescape : c ≠ '\\')
    (hcontrol : 32 ≤ c.toNat) :
    readPieces? (c :: rest) =
      (readPieces? rest).map fun (pieces, rest) => (.scalar c :: pieces, rest) := by
  rw [readPieces?.eq_def]
  have hcontrol : ¬c.toNat < 32 := by omega
  simp only [hquote, hescape, hcontrol, if_false]
  cases readPieces? rest <;> rfl

theorem readPieces?_short {letter c : Char} (rest : List Char) (hnumeric : letter ≠ 'u')
    (hchar : escapedChar? letter = some c) :
    readPieces? ('\\' :: letter :: rest) =
      (readPieces? rest).map fun (pieces, rest) => (.scalar c :: pieces, rest) := by
  rw [readPieces?.eq_def]
  simp only [Char.reduceEq, if_false, if_true, hnumeric, hchar]
  cases readPieces? rest <;> rfl

theorem readPieces?_numeric {a b c d : Char} {code : Nat} (rest : List Char)
    (hcode : hexCode? a b c d = some code) :
    readPieces? ('\\' :: 'u' :: a :: b :: c :: d :: rest) =
      (readPieces? rest).map fun (pieces, rest) => (Piece.ofCode code :: pieces, rest) := by
  rw [readPieces?.eq_def]
  simp only [Char.reduceEq, if_false, if_true, hcode]
  cases readPieces? rest <;> rfl

/-! ## Reading what is written -/

theorem readPieces?_escapeChar (c : Char) (text : List Char) :
    readPieces? (escapeChar c ++ text) =
      (readPieces? text).map fun (pieces, rest) => (.scalar c :: pieces, rest) := by
  unfold escapeChar
  cases hletter : escapeLetter? c with
  | some letter =>
      obtain ⟨hnumeric, hchar⟩ := escapedChar?_of_escapeLetter? hletter
      exact readPieces?_short text hnumeric hchar
  | none =>
      have hquote : c ≠ '"' := by
        rintro rfl
        exact absurd hletter (by decide)
      have hescape : c ≠ '\\' := by
        rintro rfl
        exact absurd hletter (by decide)
      by_cases hcontrol : c.toNat < 32
      · have hpiece : Piece.ofCode c.toNat = .scalar c := by
          rw [Piece.ofCode, if_neg (by omega), Char.ofNat_toNat]
        simp only [hcontrol, if_true, List.cons_append, List.nil_append]
        rw [readPieces?_numeric text (hexCode?_hexDigit hcontrol), hpiece]
      · simp only [hcontrol, if_false, List.cons_append, List.nil_append]
        exact readPieces?_plain text hquote hescape (by omega)

theorem readPieces?_written (text rest : List Char) :
    readPieces? (text.flatMap escapeChar ++ '"' :: rest) = some (text.map .scalar, rest) := by
  induction text with
  | nil => exact readPieces?_quote rest
  | cons c text ih => rw [List.flatMap_cons, List.append_assoc, readPieces?_escapeChar, ih]; rfl

theorem spell?_map_scalar (text : List Char) : spell? (text.map .scalar) = some text := by
  induction text with
  | nil => rfl
  | cons c text ih => rw [List.map_cons, spell?, ih]; rfl

/-- Behind its opening quote a written string reads as the text. -/
theorem readQuoted?_written (text : String) (rest : List Char) :
    readQuoted? (text.toList.flatMap escapeChar ++ '"' :: rest) = some (some text, rest) := by
  simp [readQuoted?, readPieces?_written, spell?_map_scalar]

end MethodSynthesis.Json
