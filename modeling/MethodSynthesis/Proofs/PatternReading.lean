import Mathlib.Data.List.TakeWhile
import MethodSynthesis.Pattern.Reader
import MethodSynthesis.Proofs.Outcomes

/-!
# Reading patterns ends by itself

No reader of a part of a pattern leaves more text than there was, and every turn of a loop takes at
least one character. So the fuel of the loops, which is the length of the text, lasts until the text
is used up: with any fuel of at least that length the same is read.
-/

namespace MethodSynthesis.Pattern

open Outcomes

variable {flags : Flags} {text rest : List Char}

/-! ## Skipping -/

theorem length_dropIgnored_le (inComment : Bool) (text : List Char) :
    (Flags.dropIgnored inComment text).length ≤ text.length := by
  fun_induction Flags.dropIgnored inComment text <;> grind

theorem length_skip_le (flags : Flags) (text : List Char) :
    (flags.skip text).length ≤ text.length := by
  rw [Flags.skip]
  split
  · exact length_dropIgnored_le false text
  · exact Nat.le_refl _

theorem length_readWhile_le (flags : Flags) (test : Char → Bool) (fuel : Nat) (text : List Char) :
    (flags.readWhile test fuel text).2.length ≤ text.length := by
  fun_induction Flags.readWhile flags test fuel text with
  | case1 => exact Nat.le_refl _
  | case2 => exact Nat.le_refl _
  | case3 fuel c rest hc taken rest' hread ih =>
      have hskip := length_skip_le flags rest
      grind
  | case4 => exact Nat.le_refl _

/-! ## Readers -/

/-- A reader leaves no more of a text than there was. -/
def Shortens {α : Type} (read : List Char → Except PatternFault (α × List Char)) : Prop :=
  ∀ text a rest, read text = .ok (a, rest) → rest.length ≤ text.length

theorem shortens_readHexDigits (flags : Flags) (count : Nat) :
    Shortens (readHexDigits flags count) := by
  intro text digits rest h
  induction count generalizing text digits with
  | zero =>
      cases h
      exact Nat.le_refl _
  | succ count ih =>
      cases text with
      | nil => cases h
      | cons c text =>
          rw [readHexDigits] at h
          split at h
          · obtain ⟨⟨digits, rest'⟩, hread, ⟨⟩⟩ := bind_eq_ok_iff.mp h
            have hrest := ih _ _ hread
            have hskip := length_skip_le flags text
            grind
          · cases h

theorem shortens_readCode (flags : Flags) (width : Nat) : Shortens (readCode flags width) := by
  intro text c rest h
  have hskip := length_skip_le flags text
  rw [readCode] at h
  split at h
  · rename_i inside hopen
    have hinside := length_skip_le flags inside
    have hdigits := length_readWhile_le flags isHexDigit inside.length (flags.skip inside)
    dsimp only at h
    split at h
    · cases h
    · rename_i c' behind hbehind
      split at h
      · obtain ⟨c, -, ⟨⟩⟩ := map_eq_ok_iff.mp h
        grind
      · cases h
  · obtain ⟨⟨digits, rest'⟩, hread, h⟩ := bind_eq_ok_iff.mp h
    obtain ⟨c, -, ⟨⟩⟩ := bind_eq_ok_iff.mp h
    have hshorter := shortens_readHexDigits _ _ _ _ _ hread
    omega

theorem shortens_readEdge (flags : Flags) : Shortens (readEdge flags) := by
  intro text place rest h
  rw [readEdge.eq_def] at h
  split at h
  · rename_i inside
    have hinside := length_skip_le flags inside
    split at h
    · cases h
    · rename_i c rest' hskip
      split at h
      · have hname := length_readWhile_le flags readEdge.isNameChar (c :: rest').length (c :: rest')
        dsimp only at h
        split at h
        · split at h
          · cases h
            grind
          · cases h
        · cases h
      · cases h
        exact Nat.le_refl _
  · cases h
    exact Nat.le_refl _

theorem shortens_readEscape (flags : Flags) : Shortens (readEscape flags) := by
  intro text escape rest h
  cases text with
  | nil => cases h
  | cons c text =>
      simp only [readEscape] at h
      split at h
      · cases h
      split at h
      · cases h
      split at h
      · obtain ⟨⟨place, rest'⟩, hread, ⟨⟩⟩ := map_eq_ok_iff.mp h
        exact Nat.le_succ_of_le (shortens_readEdge _ _ _ _ hread)
      split at h
      · obtain ⟨⟨c, rest'⟩, hread, ⟨⟩⟩ := map_eq_ok_iff.mp h
        exact Nat.le_succ_of_le (shortens_readCode _ _ _ _ _ hread)
      · cases h
        exact Nat.le_succ _
      · split at h
        · cases h
          exact Nat.le_succ _
        · cases h

theorem length_lt_of_readSetItem {item : SetItem} (h : readSetItem flags text = .ok (item, rest)) :
    rest.length < text.length := by
  rw [readSetItem.eq_def] at h
  split at h
  · cases h
  · rename_i inside
    obtain ⟨⟨escape, rest'⟩, hread, h⟩ := bind_eq_ok_iff.mp h
    have hshorter := shortens_readEscape _ _ _ _ hread
    dsimp only at h
    split at h <;> cases h <;> simp <;> omega
  · cases h
    simp

theorem length_lt_of_readSetRange {cls : CharClass}
    (h : readSetRange flags text = .ok (cls, rest)) : rest.length < text.length := by
  rw [readSetRange] at h
  obtain ⟨⟨low, behind⟩, hlow, h⟩ := bind_eq_ok_iff.mp h
  have hshorter := length_lt_of_readSetItem hlow
  have hskip := length_skip_le flags behind
  dsimp only at h
  split at h
  · cases h
  · rename_i c rest' hbehind
    have hnext := length_skip_le flags rest'
    rw [hbehind] at hskip
    split at h
    · obtain ⟨⟨high, last⟩, hhigh, h⟩ := bind_eq_ok_iff.mp h
      obtain ⟨range, -, ⟨⟩⟩ := bind_eq_ok_iff.mp h
      have hshorter' := length_lt_of_readSetItem hhigh
      grind
    · cases h
      grind

theorem length_le_of_readNamedClass? {cls : CharClass}
    (h : readNamedClass? text = some (cls, rest)) : rest.length ≤ text.length := by
  rw [readNamedClass?.eq_def] at h
  split at h
  · rename_i text
    dsimp only at h
    split at h
    · rename_i rest' hdrop
      obtain ⟨ranges, -, ⟨⟩⟩ := Option.map_eq_some_iff.mp h
      have hdropped := List.length_dropWhile_le (· ≠ ':')
        (if text.head? = some '^' then text.tail else text)
      grind
    · cases h
  · cases h

theorem shortens_readClasses (flags : Flags) (fuel : Nat) : Shortens (readClasses flags fuel) := by
  intro text classes rest h
  induction fuel generalizing text classes with
  | zero => cases h
  | succ fuel ih =>
      have hskip := length_skip_le flags text
      rw [readClasses] at h
      split at h
      · cases h
      · cases h
        grind
      · split at h
        · cases h
        · rename_i cls behind hnamed
          obtain ⟨⟨classes, rest'⟩, hread, ⟨⟩⟩ := bind_eq_ok_iff.mp h
          have hrest := ih _ _ hread
          have hnamedShorter := length_le_of_readNamedClass? hnamed
          grind
      · split at h
        · cases h
        · obtain ⟨⟨cls, behind⟩, hrange, h⟩ := bind_eq_ok_iff.mp h
          obtain ⟨⟨classes, rest'⟩, hread, ⟨⟩⟩ := bind_eq_ok_iff.mp h
          have hrest := ih _ _ hread
          have hrangeShorter := length_lt_of_readSetRange hrange
          grind

theorem length_readSetStart_le (flags : Flags) (text : List Char) :
    (readSetStart flags text).2.length ≤ text.length := by
  have hdashes := length_readWhile_le flags (· = '-') text.length text
  rw [readSetStart]
  split <;> grind

theorem shortens_readSet (flags : Flags) : Shortens (readSet flags) := by
  intro text set rest h
  have hskip := length_skip_le flags text
  have hnext := length_skip_le flags (flags.skip text).tail
  rw [readSet] at h
  generalize hinside : (if (flags.skip text).head? = some '^' then flags.skip (flags.skip text).tail
    else flags.skip text) = inside at h
  have hstart := length_readSetStart_le flags inside
  generalize readSetStart flags inside = start at h hstart
  obtain ⟨leading, behind⟩ := start
  obtain ⟨⟨classes, rest'⟩, hread, ⟨⟩⟩ := bind_eq_ok_iff.mp h
  have hclasses := shortens_readClasses _ _ _ _ _ hread
  grind

theorem shortens_readCount (flags : Flags) : Shortens (readCount flags) := by
  intro text count rest h
  rw [readCount] at h
  dsimp only at h
  split at h
  · cases h
  split at h
  · cases h
  · cases h
    exact ((length_skip_le _ _).trans (List.length_dropWhile_le _ _)).trans
      ((length_readWhile_le _ _ _ _).trans (List.length_dropWhile_le _ _))

theorem shortens_readMost (flags : Flags) (least : Nat) : Shortens (readMost flags least) := by
  intro text most rest h
  rw [readMost.eq_def] at h
  split at h
  · rename_i inside
    have hskip := length_skip_le flags inside
    split at h
    · cases h
      grind
    · obtain ⟨⟨most, rest'⟩, hread, ⟨⟩⟩ := map_eq_ok_iff.mp h
      have hshorter := shortens_readCount _ _ _ _ hread
      grind
  · cases h
    exact Nat.le_refl _

theorem length_skipLazyMark_le (text : List Char) : (skipLazyMark text).length ≤ text.length := by
  rw [skipLazyMark.eq_def]
  split <;> simp

theorem shortens_readRepetition (flags : Flags) : Shortens (readRepetition flags) := by
  intro text times rest h
  rw [readRepetition] at h
  obtain ⟨⟨least, behind⟩, hleast, h⟩ := bind_eq_ok_iff.mp h
  obtain ⟨⟨most, last⟩, hmost, h⟩ := bind_eq_ok_iff.mp h
  have hcount := shortens_readCount _ _ _ _ hleast
  have hlimit := shortens_readMost _ _ _ _ _ hmost
  have hskip := length_skip_le flags text
  dsimp only at h
  split at h
  · rename_i rest'
    have hbehind := length_skip_le flags rest'
    have hlazy := length_skipLazyMark_le (flags.skip rest')
    split at h
    · cases h
    · cases h
      grind
  · cases h

theorem shortens_readName (flags : Flags) : Shortens (readName flags) := by
  intro text token rest h
  rw [readName] at h
  split at h
  · cases h
  split at h
  · cases h
  · rename_i c rest' hdrop
    split at h
    · cases h
    · cases h
      have hdropped := List.length_dropWhile_le (· ≠ '>') text
      grind

theorem shortens_readFlags (seen : List Char) (value : Bool) (flags : Flags) :
    Shortens (readFlags seen value flags) := by
  intro text flags' rest h
  fun_induction readFlags seen value flags text <;> grind

theorem shortens_readFlagged (flags : Flags) : Shortens (readFlagged flags) := by
  intro text token rest h
  rw [readFlagged] at h
  split at h
  · cases h
  · obtain ⟨⟨flags', behind⟩, hread, h⟩ := bind_eq_ok_iff.mp h
    have hshorter := shortens_readFlags _ _ _ _ _ _ hread
    dsimp only at h
    split at h <;> cases h <;> grind

theorem shortens_readOpening (flags : Flags) : Shortens (readOpening flags) := by
  intro text token rest h
  have hskip := length_skip_le flags text
  rw [readOpening] at h
  split at h
  · cases h
  · cases h
  · cases h
  · cases h
  · have hshorter := shortens_readName _ _ _ _ h
    grind
  · have hshorter := shortens_readName _ _ _ _ h
    grind
  · have hshorter := shortens_readFlagged _ _ _ _ h
    grind
  · cases h
    exact hskip

theorem shortens_readToken (flags : Flags) (c : Char) : Shortens (readToken flags c) := by
  intro text token rest h
  have hlazy := length_skipLazyMark_le text
  rw [readToken.eq_def] at h
  split at h
  · exact shortens_readOpening _ _ _ _ h
  · cases h
    exact Nat.le_refl _
  · cases h
    exact Nat.le_refl _
  · obtain ⟨⟨set, rest'⟩, hread, ⟨⟩⟩ := map_eq_ok_iff.mp h
    exact shortens_readSet _ _ _ _ hread
  · cases h
    exact hlazy
  · cases h
    exact hlazy
  · cases h
    exact hlazy
  · obtain ⟨⟨times, rest'⟩, hread, ⟨⟩⟩ := map_eq_ok_iff.mp h
    exact shortens_readRepetition _ _ _ _ hread
  · obtain ⟨⟨escape, rest'⟩, hread, ⟨⟩⟩ := map_eq_ok_iff.mp h
    exact shortens_readEscape _ _ _ _ hread
  all_goals
    cases h
    exact Nat.le_refl _

/-! ## Fuel -/

variable {fuel other : Nat}

theorem Flags.readWhile_congr (flags : Flags) (test : Char → Bool) (hfuel : text.length ≤ fuel)
    (hother : text.length ≤ other) :
    flags.readWhile test fuel text = flags.readWhile test other text := by
  induction fuel generalizing other text with
  | zero =>
      obtain rfl := List.eq_nil_of_length_eq_zero (Nat.le_zero.mp hfuel)
      cases other <;> rfl
  | succ fuel ih =>
      cases text with
      | nil => cases other <;> rfl
      | cons c rest =>
          obtain ⟨other, rfl⟩ := Nat.exists_eq_add_one_of_ne_zero (Nat.ne_zero_of_lt hother)
          have hskip := length_skip_le flags rest
          rw [List.length_cons] at hfuel hother
          have hsame : flags.readWhile test fuel (flags.skip rest) =
              flags.readWhile test other (flags.skip rest) := ih (by omega) (by omega)
          rw [Flags.readWhile, Flags.readWhile, hsame]

theorem readClasses_of_skip_eq_nil (hnone : flags.skip text = []) (fuel : Nat) :
    readClasses flags fuel text = .error .unclosedSet := by
  cases fuel with
  | zero => rfl
  | succ fuel => rw [readClasses, hnone]

theorem readClasses_congr (flags : Flags) (hfuel : text.length ≤ fuel)
    (hother : text.length ≤ other) :
    readClasses flags fuel text = readClasses flags other text := by
  induction fuel generalizing other text with
  | zero =>
      have hskip := length_skip_le flags text
      have hnone : flags.skip text = [] := List.eq_nil_of_length_eq_zero (by omega)
      rw [readClasses_of_skip_eq_nil hnone, readClasses_of_skip_eq_nil hnone]
  | succ fuel ih =>
      have hskip := length_skip_le flags text
      cases other with
      | zero =>
          have hnone : flags.skip text = [] := List.eq_nil_of_length_eq_zero (by omega)
          rw [readClasses_of_skip_eq_nil hnone, readClasses_of_skip_eq_nil hnone]
      | succ other =>
          rw [readClasses, readClasses]
          split
          · rfl
          · rfl
          · rename_i rest htext
            cases hnamed : readNamedClass? rest with
            | none => rfl
            | some read =>
                obtain ⟨cls, behind⟩ := read
                have hshorter := length_le_of_readNamedClass? hnamed
                rw [htext, List.length_cons] at hskip
                have hsame : readClasses flags fuel behind = readClasses flags other behind :=
                  ih (by omega) (by omega)
                dsimp only
                rw [hsame]
          · rename_i c rest hclosing hopening htext
            split
            · rfl
            cases hrange : readSetRange flags (c :: rest) with
            | error fault => rfl
            | ok read =>
                obtain ⟨cls, behind⟩ := read
                have hshorter := length_lt_of_readSetRange hrange
                rw [htext] at hskip
                have hsame : readClasses flags fuel behind = readClasses flags other behind :=
                  ih (by omega) (by omega)
                dsimp only [bind, Except.bind]
                rw [hsame]

/-- With fuel for the length of a text the whole of it is read. -/
theorem Reading.run_congr (r : Reading) (hfuel : text.length ≤ fuel)
    (hother : text.length ≤ other) : r.run fuel text = r.run other text := by
  induction fuel generalizing other r text with
  | zero =>
      have hskip := length_skip_le r.flags text
      have hnone : r.flags.skip text = [] := List.eq_nil_of_length_eq_zero (by omega)
      rw [Reading.run.eq_def, Reading.run.eq_def]
      simp [hnone]
  | succ fuel ih =>
      have hskip := length_skip_le r.flags text
      rw [Reading.run.eq_def, Reading.run.eq_def other]
      cases htext : r.flags.skip text with
      | nil => simp
      | cons c rest =>
          rw [htext, List.length_cons] at hskip
          obtain ⟨other, rfl⟩ : ∃ n, other = n + 1 := ⟨other - 1, by omega⟩
          dsimp only
          cases htoken : readToken r.flags c rest with
          | error fault => rfl
          | ok read =>
              obtain ⟨token, behind⟩ := read
              have hshorter := shortens_readToken _ _ _ _ _ htoken
              dsimp only [bind, Except.bind]
              cases r.take token with
              | error fault => rfl
              | ok next => exact ih next (by omega) (by omega)

end MethodSynthesis.Pattern
