import MethodSynthesis.Proofs.ScriptLines
import MethodSynthesis.Proofs.ScriptSections
import MethodSynthesis.Proofs.TokenCharacters
import MethodSynthesis.Proofs.WrittenCalls

/-!
# Written scripts

Sections are written line by line, each step on a line with its mark and each call on a line of its
own. Lines that say nothing may stand anywhere, every line may be indented, and lines may end either
way: the text is read as the script that the sections make. Names and strings are always recovered;
of the floats it is those that the reader of numbers recovers, and being finite is not enough.
-/

namespace MethodSynthesis

namespace CallScript

open Text
open ScriptLine (ofChars)

variable {call : Call} {calls : List Call} {name : String} {gap line text : List Char}
  {lines : List (List Char)} {written : List (String × List Call)}

/-! ## What is written -/

/-- The step has a name that fits on its line, and its calls have names of methods and floats with
the property. -/
structure IsWritable (p : Binary64 → Prop) (step : String × List Call) : Prop where
  name_ne : step.1 ≠ ""
  trimmed : IsTrimmed step.1.toList
  oneLine : '\n' ∉ step.1.toList
  methods : ∀ call ∈ step.2, Call.isName call.method.toList = true
  floats : ∀ call ∈ step.2, ∀ v ∈ call.arguments, ∀ x ∈ v.floats, p x

/-- A line that says nothing: blanks, or a comment between blanks that is no step mark. -/
inductive IsFiller : List Char → Prop
  | blank {line : List Char} (h : IsBlankText line) : IsFiller line
  | comment {rest line : List Char} (htrimmed : IsTrimmed ('-' :: '-' :: rest))
      (hrest : rest.head? ≠ some '#') (h : IsBetweenBlanks ('-' :: '-' :: rest) line) :
      IsFiller line

/-- The lines write the calls, which belong to the step that is open, and then the steps. -/
inductive Writes : List Call → List (String × List Call) → List (List Char) → Prop
  | done : Writes [] [] []
  | filler {calls : List Call} {written : List (String × List Call)} {line : List Char}
      {lines : List (List Char)} (hline : IsFiller line) (h : Writes calls written lines) :
      Writes calls written (line :: lines)
  | call {call : Call} {calls : List Call} {written : List (String × List Call)} {line : List Char}
      {lines : List (List Char)} (hline : IsBetweenBlanks call.toText.toList line)
      (h : Writes calls written lines) : Writes (call :: calls) written (line :: lines)
  | step {name : String} {gap : List Char} {calls : List Call}
      {written : List (String × List Call)} {line : List Char} {lines : List (List Char)}
      (hgap : IsBlankText gap)
      (hline : IsBetweenBlanks ('-' :: '-' :: '#' :: (gap ++ name.toList)) line)
      (h : Writes calls written lines) : Writes [] ((name, calls) :: written) (line :: lines)

theorem Writes.append_filler (h : Writes calls written lines) (hline : IsFiller line) :
    Writes calls written (lines ++ [line]) := by
  induction h with
  | done => exact .filler hline .done
  | filler hfiller h ih => exact .filler hfiller ih
  | call hcall h ih => exact .call hcall ih
  | step hgap hstep h ih => exact .step hgap hstep ih

def plainLines (step : String × List Call) : List (List Char) :=
  ("--# ".toList ++ step.1.toList) :: step.2.map fun call => call.toText.toList

theorem writes_plainLines (written : List (String × List Call)) :
    Writes [] written (written.flatMap plainLines) := by
  have hcalls : ∀ {calls others lines}, Writes [] others lines →
      Writes calls others ((calls.map fun call => call.toText.toList) ++ lines) := by
    intro calls others lines h
    induction calls with
    | nil => exact h
    | cons call calls ih => exact .call (isBetweenBlanks_refl _) ih
  induction written with
  | nil => exact .done
  | cons step written ih =>
      have hgap : IsBlankText [' '] := by decide
      exact .step hgap (isBetweenBlanks_refl _) (hcalls ih)

theorem newline_notMem_toText (h : Call.isName call.method.toList = true) :
    '\n' ∉ call.toText.toList := by
  have hmethod : '\n' ∉ call.method.toList := fun hmem =>
    absurd (Call.isNameChar_of_isName h _ hmem) (by decide)
  rw [Call.toList_toText]
  simp [hmethod, Call.newline_notMem_argumentChars]

theorem newline_notMem_plainLines {p : Binary64 → Prop} (h : ∀ step ∈ written, IsWritable p step) :
    ∀ line ∈ written.flatMap plainLines, '\n' ∉ line := by
  intro line hline
  obtain ⟨step, hstep, hline⟩ := List.mem_flatMap.mp hline
  rcases List.mem_cons.mp hline with rfl | hcall
  · simp [(h step hstep).oneLine]
  · obtain ⟨call, hmem, rfl⟩ := List.mem_map.mp hcall
    exact newline_notMem_toText ((h step hstep).methods call hmem)

/-! ## Reading what is written -/

theorem ofChars_of_isFiller (h : IsFiller line) : ofChars line = .skipped := by
  apply ScriptLine.ofChars_eq_iff.mpr
  cases h with
  | blank h => exact ⟨[], isTrimmed_nil, isBetweenBlanks_nil h, .blank⟩
  | comment htrimmed hrest h => exact ⟨_, htrimmed, h, .comment hrest⟩

theorem ofChars_stepMark (hgap : IsBlankText gap) (hne : name ≠ "") (hname : IsTrimmed name.toList)
    (hline : IsBetweenBlanks ('-' :: '-' :: '#' :: (gap ++ name.toList)) line) :
    ofChars line = .step name := by
  have htrimmed : IsTrimmed ('-' :: '-' :: '#' :: (gap ++ name.toList)) := by
    constructor
    · rintro c ⟨⟩
      decide
    · intro c hc
      have hchars : name.toList ≠ [] := by simpa using hne
      apply hname.last
      rwa [← List.cons_append, ← List.cons_append, ← List.cons_append,
        List.getLast?_append_of_ne_nil _ hchars] at hc
  have hbetween : IsBetweenBlanks name.toList (gap ++ name.toList) :=
    ⟨gap, [], hgap, nofun, by rw [List.append_nil]⟩
  have htells := ScriptLine.Tells.step hname hbetween
  rw [String.ofList_toList] at htells
  exact ScriptLine.ofChars_eq_iff.mpr ⟨_, htrimmed, hline, htells⟩

theorem isBlank_of_isNameStart {c : Char} (h : Call.isNameStart c = true) :
    isBlank c = false ∧ c ≠ '-' := by
  have hsmall : c.toNat < 123 := by
    rw [Call.isNameStart, Bool.or_eq_true, Naming.isAlpha_iff, decide_eq_true_eq] at h
    rcases h with hletter | rfl
    · show c.val.toNat < 123
      omega
    · decide
  exact forall_below (P := fun c => Call.isNameStart c = true → isBlank c = false ∧ c ≠ '-')
    (by decide) hsmall h

theorem exists_toText_eq_cons (h : Call.isName call.method.toList = true) :
    ∃ c rest, call.toText.toList = c :: rest ∧ isBlank c = false ∧ c ≠ '-' := by
  rw [Call.toList_toText]
  cases hmethod : call.method.toList with
  | nil =>
      rw [hmethod] at h
      cases h
  | cons c method =>
      rw [hmethod, Call.isName, Bool.and_eq_true] at h
      exact ⟨c, _, rfl, isBlank_of_isNameStart h.1⟩

theorem isTrimmed_toText (h : Call.isName call.method.toList = true) :
    IsTrimmed call.toText.toList where
  head := by
    obtain ⟨first, rest, htext, hblank, -⟩ := exists_toText_eq_cons h
    rw [htext]
    rintro c ⟨⟩
    exact hblank
  last := by
    have hlast : call.toText.toList.getLast? = some ')' := by
      rw [Call.toList_toText]
      simp [List.getLast?_append, List.getLast?_cons]
    rw [hlast]
    rintro c ⟨⟩
    decide

theorem ofChars_toText (h : Call.isName call.method.toList = true)
    (hline : IsBetweenBlanks call.toText.toList line) : ofChars line = .call call.toText := by
  obtain ⟨first, rest, htext, -, hdash⟩ := exists_toText_eq_cons h
  have hne : call.toText.toList ≠ [] := by simp [htext]
  have hcomment : ¬ScriptLine.commentMark <+: call.toText.toList := by
    rw [htext]
    intro hmark
    exact hdash (List.cons_prefix_cons.mp hmark).1.symm
  have htells := ScriptLine.Tells.call hne hcomment
  rw [String.ofList_toList] at htells
  exact ScriptLine.ofChars_eq_iff.mpr ⟨_, isTrimmed_toText h, hline, htells⟩

theorem ofText_toText (hname : Call.isName call.method.toList = true)
    (hfloats : ∀ v ∈ call.arguments, ∀ x ∈ v.floats, x.ReadsBack) :
    Call.ofText call.toText = .ok call :=
  Call.ofText_eq_ok_iff.mpr
    ⟨[], _, Call.layout_toText hname, Call.argumentList_argumentChars hfloats⟩

theorem hasSections_of_writes (h : Writes calls written lines)
    (hmethods : ∀ call ∈ calls, Call.isName call.method.toList = true)
    (hfloats : ∀ call ∈ calls, ∀ v ∈ call.arguments, ∀ x ∈ v.floats, x.ReadsBack)
    (hwritten : ∀ step ∈ written, IsWritable Binary64.ReadsBack step) :
    AreCalls (callTexts (lines.map ofChars)) calls ∧ HasSections (lines.map ofChars) written := by
  induction h with
  | done => exact ⟨.nil, .nil⟩
  | filler hline h ih =>
      rw [List.map_cons, ofChars_of_isFiller hline]
      exact ih hmethods hfloats hwritten
  | call hline h ih =>
      obtain ⟨hname, hmethods⟩ := List.forall_mem_cons.mp hmethods
      obtain ⟨hvalues, hfloats⟩ := List.forall_mem_cons.mp hfloats
      obtain ⟨hcalls, hsections⟩ := ih hmethods hfloats hwritten
      rw [List.map_cons, ofChars_toText hname hline]
      exact ⟨.cons (ofText_toText hname hvalues) hcalls, hsections⟩
  | step hgap hline h ih =>
      obtain ⟨hstep, hwritten⟩ := List.forall_mem_cons.mp hwritten
      obtain ⟨hcalls, hsections⟩ := ih hstep.methods hstep.floats hwritten
      rw [List.map_cons, ofChars_stepMark hgap hstep.name_ne hstep.trimmed hline]
      exact ⟨.nil, hasSections_step_iff.mpr ⟨hstep.name_ne, _, _, hcalls, hsections, rfl⟩⟩

/-! ## Reading scripts -/

def linesOf (source : String) : List ScriptLine := (splitLines source.toList).map ofChars

theorem hasSections_of_hasLines (hwritten : ∀ step ∈ written, IsWritable Binary64.ReadsBack step)
    (h : Writes [] written lines) (hlines : HasLines lines text) :
    HasSections (linesOf (String.ofList text)) written := by
  have hsections : ∀ {lines}, Writes [] written lines → HasSections (lines.map ofChars) written :=
    fun h => (hasSections_of_writes h nofun nofun hwritten).2
  obtain ⟨ends, hends, heq⟩ := ScriptLine.map_ofChars_splitLines hlines
  rw [linesOf, String.toList_ofList, heq]
  rcases hends with rfl | rfl
  · exact hsections (by rwa [List.append_nil])
  · exact hsections (h.append_filler (.blank nofun))

/-- A line is read as what its text between blanks tells. A source is refused with the first fault
of its lines, and else it is read as what its sections make. Whatever sections are written, in any
of the ways that they can be, the text is read as the script that they make, as far as the floats in
them read back. -/
theorem ofText_sections_exact :
    (∀ raw line, ofChars raw = line ↔
      ∃ text, IsTrimmed text ∧ IsBetweenBlanks text raw ∧ ScriptLine.Tells text line) ∧
    (∀ source e, ofText source = .error e ↔ IsFirstFault [] (linesOf source) e) ∧
    (∀ source script, ofText source = .ok script ↔
      ∃ read, HasSections (linesOf source) read ∧ script.Holds read) ∧
    (∀ source script step, ofText source = .ok script →
      (step ∈ script.calls.keys ↔ step ∈ script.stepNames)) ∧
    (∀ {p written}, (∀ step ∈ written, IsWritable p step) →
      ∃ lines text, Writes [] written lines ∧ HasLines lines text) ∧
    ∀ {written lines text}, (∀ step ∈ written, IsWritable Binary64.ReadsBack step) →
      Writes [] written lines → HasLines lines text →
        ∃ script, ofText (String.ofList text) = .ok script ∧ script.Holds written := by
  have hread : ∀ {source script}, ofText source = .ok script ↔
      ∃ read, HasSections (linesOf source) read ∧ script.Holds read := readLines_eq_ok_iff
  refine ⟨fun raw line => ScriptLine.ofChars_eq_iff, ?_, fun source script => hread, ?_, ?_, ?_⟩
  · intro source e
    exact readLines_eq_error_iff (by simp)
  · intro source script step h
    obtain ⟨read, -, hholds⟩ := hread.mp h
    exact hholds.mem_keys_iff
  · intro p written hwritten
    obtain ⟨text, htext⟩ := exists_hasLines (newline_notMem_plainLines hwritten)
    exact ⟨_, text, writes_plainLines written, htext⟩
  · intro written lines text hwritten hwrites hlines
    obtain ⟨script, hholds⟩ := exists_holds written
    exact ⟨script, hread.mpr ⟨written, hasSections_of_hasLines hwritten hwrites hlines, hholds⟩,
      hholds⟩

/-- A step that is opened again behind a comment goes on where it ended; one line is indented, and
the first ends another way. -/
theorem ofText_sections_exact_tune :
    ∃ script, ofText "--# tune\r\n\tsetGain(0.5)\n-- again\n--# tune\nreset()" = .ok script ∧
      script.stepNames = ["tune", "tune"] ∧ script.callsOf? "tune" = some
        [⟨"setGain", [.float (.finite false ⟨4602678819172646912, by decide⟩)]⟩,
          ⟨"reset", []⟩] := by
  let setGain : Call := ⟨"setGain", [.float (.finite false ⟨4602678819172646912, by decide⟩)]⟩
  have hwritable : ∀ step ∈ [("tune", [setGain]), ("tune", [⟨"reset", []⟩])],
      IsWritable Binary64.ReadsBack step := by
    simp only [List.forall_mem_cons]
    exact ⟨⟨by decide, by decide, by decide, by decide, by decide +kernel⟩,
      ⟨by decide, by decide, by decide, by decide, by decide⟩, nofun⟩
  have hgap : IsBlankText [' '] := by decide
  have hindented : IsBetweenBlanks setGain.toText.toList "\tsetGain(0.5)".toList :=
    ⟨['\t'], [], by decide, nofun, by decide +kernel⟩
  have hcomment : IsFiller "-- again".toList :=
    .comment (by decide) (by decide) (isBetweenBlanks_refl _)
  have hwrites : Writes [] [("tune", [setGain]), ("tune", [⟨"reset", []⟩])]
      ["--# tune".toList, "\tsetGain(0.5)".toList, "-- again".toList, "--# tune".toList,
        "reset()".toList] :=
    .step hgap (isBetweenBlanks_refl _) <| .call hindented <| .filler hcomment <|
      .step hgap (isBetweenBlanks_refl _) <| .call (isBetweenBlanks_refl _) .done
  obtain ⟨-, -, -, -, -, hread⟩ := ofText_sections_exact
  obtain ⟨script, hscript, hholds⟩ := hread hwritable hwrites
    (.returnFeed (by decide) <| .feed (by decide) <| .feed (by decide) <| .feed (by decide) <|
      .last (by decide))
  refine ⟨script, hscript, hholds.stepNames_eq, ?_⟩
  rw [hholds.callsOf?_eq, hholds.stepNames_eq]
  rfl

/-- A finite float is not always recovered: the gain that is written as 1e-23 is read as the float
next to it. -/
theorem not_holds_finite_gain :
    ∃ setGain : Call, IsWritable (fun x => x.isFinite = true) ("tune", [setGain]) ∧
      Writes [] [("tune", [setGain])] ["--# tune".toList, "setGain(1e-23)".toList] ∧
      HasLines ["--# tune".toList, "setGain(1e-23)".toList] "--# tune\nsetGain(1e-23)\n".toList ∧
      ¬∃ script, ofText "--# tune\nsetGain(1e-23)\n" = .ok script ∧
        script.Holds [("tune", [setGain])] := by
  let setGain : Call := ⟨"setGain", [.float (.finite false ⟨4262707295203537489, by decide⟩)]⟩
  let next : Call := ⟨"setGain", [.float (.finite false ⟨4262707295203537490, by decide⟩)]⟩
  have hgap : IsBlankText [' '] := by decide
  have hcall : IsBetweenBlanks setGain.toText.toList "setGain(1e-23)".toList :=
    ⟨[], [], nofun, nofun, by decide +kernel⟩
  refine ⟨setGain, ⟨by decide, by decide, by decide, by decide, by decide⟩,
    .step hgap (isBetweenBlanks_refl _) (.call hcall .done),
    .feed (by decide) (.feed (by decide) .none), ?_⟩
  rintro ⟨script, hscript, hholds⟩
  have hwritten : script.callsOf? "tune" = some [setGain] := by
    rw [hholds.callsOf?_eq, hholds.stepNames_eq]
    rfl
  have hread : (ofText "--# tune\nsetGain(1e-23)\n").toOption.bind (fun s => s.callsOf? "tune") =
      some [next] := by decide +kernel
  have hsame : some [setGain] = some [next] := by
    rw [← hwritten, ← hread, hscript]
    rfl
  exact absurd hsame (by decide)

end CallScript

end MethodSynthesis
