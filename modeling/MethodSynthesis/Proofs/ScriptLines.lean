import Mathlib.Data.List.TakeWhile
import MethodSynthesis.Scenario.CallScript

/-!
# Lines of a script

Each line of a script is one text between blanks, and what it tells is decided by how that text
starts. A carriage return is a blank, so a line that ends with one and a line feed is read as a line
that ends with the line feed alone, and a line end behind the last line adds no more than a blank
line.
-/

namespace MethodSynthesis

namespace Text

variable {before after core line rest text : List Char}

/-! ## Blanks at both ends -/

def IsBlankText (text : List Char) : Prop := ∀ c ∈ text, isBlank c = true

instance (text : List Char) : Decidable (IsBlankText text) :=
  decidable_of_iff (text.all isBlank = true) List.all_eq_true

structure IsTrimmed (text : List Char) : Prop where
  head : ∀ c ∈ text.head?, isBlank c = false
  last : ∀ c ∈ text.getLast?, isBlank c = false

instance (text : List Char) : Decidable (IsTrimmed text) :=
  decidable_of_iff (text.head?.all (!isBlank ·) = true ∧ text.getLast?.all (!isBlank ·) = true) <| by
    simp only [Option.all_eq_true, Bool.not_eq_true']
    exact ⟨fun h => ⟨h.1, h.2⟩, fun h => ⟨h.head, h.last⟩⟩

def IsBetweenBlanks (core line : List Char) : Prop :=
  ∃ before after, IsBlankText before ∧ IsBlankText after ∧ line = before ++ (core ++ after)

theorem isTrimmed_nil : IsTrimmed [] := ⟨nofun, nofun⟩

theorem isBetweenBlanks_refl (core : List Char) : IsBetweenBlanks core core :=
  ⟨[], [], nofun, nofun, (List.append_nil core).symm⟩

theorem isBetweenBlanks_nil (h : IsBlankText line) : IsBetweenBlanks [] line :=
  ⟨line, [], h, nofun, (List.append_nil line).symm⟩

theorem isBlank_head_dropWhile (text : List Char) :
    ∀ c ∈ (text.dropWhile isBlank).head?, isBlank c = false := by
  intro c hc
  have hfirst := List.head?_dropWhile_not isBlank text
  rwa [Option.mem_def.mp hc] at hfirst

theorem dropWhile_isBlank_eq_self (h : ∀ c ∈ text.head?, isBlank c = false) :
    text.dropWhile isBlank = text := by
  cases text with
  | nil => rfl
  | cons c rest => rw [List.dropWhile_cons_of_neg (by simp [h c rfl])]

theorem trimEnd_append (hafter : IsBlankText after) : trimEnd (text ++ after) = trimEnd text := by
  have hreverse : ∀ c ∈ after.reverse, isBlank c = true := fun c hc =>
    hafter c (List.mem_reverse.mp hc)
  rw [trimEnd, trimEnd, List.reverse_append, List.dropWhile_append_of_pos hreverse]

theorem trimEnd_eq_self (h : ∀ c ∈ text.getLast?, isBlank c = false) : trimEnd text = text := by
  rw [trimEnd, dropWhile_isBlank_eq_self (by rwa [List.head?_reverse]), List.reverse_reverse]

theorem exists_isBlankText_trimEnd (text : List Char) :
    ∃ after, IsBlankText after ∧ text = trimEnd text ++ after := by
  refine ⟨(text.reverse.takeWhile isBlank).reverse, ?_, ?_⟩
  · intro c hc
    exact List.mem_takeWhile_imp (List.mem_reverse.mp hc)
  · rw [trimEnd, ← List.reverse_append, List.takeWhile_append_dropWhile, List.reverse_reverse]

theorem isBetweenBlanks_trim (line : List Char) : IsBetweenBlanks (trim line) line := by
  obtain ⟨after, hafter, hend⟩ := exists_isBlankText_trimEnd (line.dropWhile isBlank)
  refine ⟨line.takeWhile isBlank, after, fun c hc => List.mem_takeWhile_imp hc, hafter, ?_⟩
  rw [trim, ← hend, List.takeWhile_append_dropWhile]

theorem isTrimmed_trim (line : List Char) : IsTrimmed (trim line) where
  head := by
    intro c hc
    obtain ⟨after, -, hend⟩ := exists_isBlankText_trimEnd (line.dropWhile isBlank)
    apply isBlank_head_dropWhile line
    rw [hend, List.head?_append, ← trim, Option.mem_def.mp hc]
    rfl
  last := by
    rw [trim, trimEnd, List.getLast?_reverse]
    exact isBlank_head_dropWhile _

theorem trim_eq_of_between (htrimmed : IsTrimmed core) (h : IsBetweenBlanks core line) :
    trim line = core := by
  obtain ⟨before, after, hbefore, hafter, rfl⟩ := h
  rw [trim, List.dropWhile_append_of_pos hbefore]
  cases core with
  | nil =>
      have hnone : after.dropWhile isBlank = [] := List.dropWhile_eq_nil_iff.mpr hafter
      rw [List.nil_append, hnone]
      rfl
  | cons c rest =>
      have hhead : ∀ d ∈ (c :: rest ++ after).head?, isBlank d = false := htrimmed.head
      rw [dropWhile_isBlank_eq_self hhead, trimEnd_append hafter, trimEnd_eq_self htrimmed.last]

/-! ## Line ends -/

theorem splitLines_eq_singleton (h : '\n' ∉ line) : splitLines line = [line] := by
  induction line with
  | nil => rfl
  | cons c rest ih =>
      obtain ⟨hc, hrest⟩ := List.ne_and_not_mem_of_not_mem_cons h
      rw [splitLines, if_neg hc.symm, ih hrest]
      rfl

theorem splitLines_append (h : '\n' ∉ line) (rest : List Char) :
    splitLines (line ++ '\n' :: rest) = line :: splitLines rest := by
  induction line with
  | nil => rfl
  | cons c line ih =>
      obtain ⟨hc, hline⟩ := List.ne_and_not_mem_of_not_mem_cons h
      rw [List.cons_append, splitLines, if_neg hc.symm, ih hline]
      rfl

/-- The text has the lines, each ended by a line feed or by a carriage return and a line feed, the
last one perhaps by nothing. -/
inductive HasLines : List (List Char) → List Char → Prop
  | none : HasLines [] []
  | last {line : List Char} (hline : '\n' ∉ line) : HasLines [line] line
  | feed {line rest : List Char} {lines : List (List Char)} (hline : '\n' ∉ line)
      (h : HasLines lines rest) : HasLines (line :: lines) (line ++ '\n' :: rest)
  | returnFeed {line rest : List Char} {lines : List (List Char)} (hline : '\n' ∉ line)
      (h : HasLines lines rest) : HasLines (line :: lines) (line ++ '\r' :: '\n' :: rest)

theorem exists_hasLines {lines : List (List Char)} (h : ∀ line ∈ lines, '\n' ∉ line) :
    ∃ text, HasLines lines text := by
  induction lines with
  | nil => exact ⟨[], .none⟩
  | cons line lines ih =>
      obtain ⟨hline, hlines⟩ := List.forall_mem_cons.mp h
      obtain ⟨text, htext⟩ := ih hlines
      exact ⟨_, .feed hline htext⟩

end Text

namespace ScriptLine

open Text

variable {raw text rest suffix name : List Char} {line : ScriptLine}

/-! ## What a line tells -/

/-- What the text of a line tells: a step mark has the name of the step between blanks behind it,
and any other text that starts like a comment tells nothing. -/
inductive Tells : List Char → ScriptLine → Prop
  | step {suffix name : List Char} (hname : IsTrimmed name) (h : IsBetweenBlanks name suffix) :
      Tells ('-' :: '-' :: '#' :: suffix) (.step (String.ofList name))
  | blank : Tells [] .skipped
  | comment {rest : List Char} (h : rest.head? ≠ some '#') : Tells ('-' :: '-' :: rest) .skipped
  | call {text : List Char} (hne : text ≠ []) (h : ¬commentMark <+: text) :
      Tells text (.call (String.ofList text))

theorem ofChars_eq_step (h : trim raw = '-' :: '-' :: '#' :: suffix) :
    ofChars raw = .step (String.ofList (trim suffix)) := by
  simp [ofChars, h, stepMark]

theorem ofChars_eq_skipped (h : trim raw = '-' :: '-' :: rest) (hrest : rest.head? ≠ some '#') :
    ofChars raw = .skipped := by
  cases rest with
  | nil => simp [ofChars, h, stepMark, commentMark]
  | cons c rest =>
      have hc : ¬( '#' = c) := fun heq => hrest (congrArg some heq.symm)
      simp [ofChars, h, stepMark, commentMark, hc]

theorem ofChars_eq_call (hne : trim raw ≠ []) (h : ¬commentMark <+: trim raw) :
    ofChars raw = .call (String.ofList (trim raw)) := by
  have hstep : ¬stepMark <+: trim raw := fun hmark =>
    h (List.IsPrefix.trans (by decide) hmark)
  simp [ofChars, h, hstep, hne]

theorem ofChars_of_tells (h : Tells (trim raw) line) : ofChars raw = line := by
  generalize htext : trim raw = text at h
  cases h with
  | step hname h => rw [ofChars_eq_step htext, trim_eq_of_between hname h]
  | blank => simp [ofChars, htext, stepMark]
  | comment h => exact ofChars_eq_skipped htext h
  | call hne h =>
      subst htext
      exact ofChars_eq_call hne h

theorem exists_tells (text : List Char) : ∃ line, Tells text line := by
  by_cases hne : text = []
  · subst hne
    exact ⟨_, .blank⟩
  by_cases hmark : commentMark <+: text
  · obtain ⟨rest, rfl⟩ := hmark
    by_cases hstep : rest.head? = some '#'
    · obtain ⟨suffix, rfl⟩ := List.head?_eq_some_iff.mp hstep
      exact ⟨_, .step (isTrimmed_trim suffix) (isBetweenBlanks_trim suffix)⟩
    · exact ⟨_, .comment hstep⟩
  · exact ⟨_, .call hne hmark⟩

theorem ofChars_eq_iff :
    ofChars raw = line ↔ ∃ text, IsTrimmed text ∧ IsBetweenBlanks text raw ∧ Tells text line := by
  constructor
  · intro h
    obtain ⟨told, htells⟩ := exists_tells (trim raw)
    rw [ofChars_of_tells htells] at h
    subst h
    exact ⟨_, isTrimmed_trim raw, isBetweenBlanks_trim raw, htells⟩
  · intro h
    obtain ⟨text, htrimmed, hbetween, htells⟩ := h
    rw [← trim_eq_of_between htrimmed hbetween] at htells
    exact ofChars_of_tells htells

theorem ofChars_append_return (raw : List Char) : ofChars (raw ++ ['\r']) = ofChars raw := by
  have hreturn : IsBlankText ['\r'] := by decide
  have htrim : trim (raw ++ ['\r']) = trim raw := by
    obtain ⟨before, after, hbefore, hafter, hraw⟩ := isBetweenBlanks_trim raw
    apply trim_eq_of_between (isTrimmed_trim raw)
    refine ⟨before, after ++ ['\r'], hbefore, List.forall_mem_append.mpr ⟨hafter, hreturn⟩, ?_⟩
    calc raw ++ ['\r'] = before ++ (trim raw ++ after) ++ ['\r'] := by rw [← hraw]
      _ = before ++ (trim raw ++ (after ++ ['\r'])) := by simp
  rw [ofChars, ofChars, htrim]

/-- The lines of a text are read one by one, whatever ends them. Behind a line end there is one more
line, which is blank if no other follows. -/
theorem map_ofChars_splitLines {lines : List (List Char)} (h : HasLines lines text) :
    ∃ ends : List (List Char), (ends = [] ∨ ends = [[]]) ∧
      (splitLines text).map ofChars = (lines ++ ends).map ofChars := by
  induction h with
  | none => exact ⟨[[]], .inr rfl, rfl⟩
  | last hline => exact ⟨[], .inl rfl, by rw [splitLines_eq_singleton hline, List.append_nil]⟩
  | feed hline h ih =>
      obtain ⟨ends, hends, hlines⟩ := ih
      refine ⟨ends, hends, ?_⟩
      rw [splitLines_append hline, List.map_cons, hlines, List.cons_append, List.map_cons]
  | @returnFeed line rest lines hline h ih =>
      obtain ⟨ends, hends, hlines⟩ := ih
      refine ⟨ends, hends, ?_⟩
      -- The carriage return stays on the line, as one of the blanks at its end.
      have hreturn : '\n' ∉ line ++ ['\r'] := by simp [hline]
      have hcut := splitLines_append hreturn rest
      rw [List.append_assoc, List.singleton_append] at hcut
      rw [hcut, List.map_cons, ofChars_append_return, hlines, List.cons_append, List.map_cons]

end ScriptLine

end MethodSynthesis
