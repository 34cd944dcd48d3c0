import Mathlib.Data.List.Forall2
import Mathlib.Data.List.Induction
import MethodSynthesis.Proofs.TableContents
import MethodSynthesis.Scenario.CallScript

/-!
# Sections of a script

The lines of a script fall into sections: a step with the calls behind it, up to the next step. A
script is determined by its sections. It has the names of the steps in order, and under each name
the calls of all sections of that name, one section after the other. Reading keeps this from line to
line, where the last section is the one that is still open, and ends at the first line that cannot
be read.
-/

namespace MethodSynthesis

namespace CallScript

variable {script final : CallScript} {line : ScriptLine} {lines seen : List ScriptLine}
  {step name text : String} {calls : List Call} {written : List (String × List Call)}
  {e : CallScriptError}

/-! ## Sections -/

def callTexts : List ScriptLine → List String
  | [] => []
  | .step _ :: _ => []
  | .skipped :: lines => callTexts lines
  | .call text :: lines => text :: callTexts lines

/-- The steps with the texts of their calls. What stands before the first step belongs to none. -/
def sectionTexts : List ScriptLine → List (String × List String)
  | [] => []
  | .step name :: lines => (name, callTexts lines) :: sectionTexts lines
  | .skipped :: lines => sectionTexts lines
  | .call _ :: lines => sectionTexts lines

def AreCalls (texts : List String) (calls : List Call) : Prop :=
  List.Forall₂ (fun text call => Call.ofText text = .ok call) texts calls

/-- A section is read under its name, which is not empty. -/
structure IsSection (text : String × List String) (read : String × List Call) : Prop where
  name_eq : read.1 = text.1
  name_ne : read.1 ≠ ""
  calls : AreCalls text.2 read.2

def HasSections (lines : List ScriptLine) (read : List (String × List Call)) : Prop :=
  List.Forall₂ IsSection (sectionTexts lines) read

def callsUnder (step : String) (written : List (String × List Call)) : List Call :=
  (written.filter fun s => s.1 = step).flatMap Prod.snd

theorem callsUnder_append (step : String) (front back : List (String × List Call)) :
    callsUnder step (front ++ back) = callsUnder step front ++ callsUnder step back := by
  simp [callsUnder]

theorem callsUnder_singleton (step name : String) (calls : List Call) :
    callsUnder step [(name, calls)] = if name = step then calls else [] := by
  by_cases h : name = step <;> simp [callsUnder, h]

theorem callsUnder_eq_nil (h : step ∉ written.map Prod.fst) : callsUnder step written = [] := by
  have hnone : (written.filter fun s => s.1 = step) = [] := by
    apply List.filter_eq_nil_iff.mpr
    intro s hs heq
    exact h (List.mem_map.mpr ⟨s, hs, of_decide_eq_true heq⟩)
  rw [callsUnder, hnone, List.flatMap_nil]

/-! ## What a script holds -/

structure Holds (script : CallScript) (written : List (String × List Call)) : Prop where
  stepNames_eq : script.stepNames = written.map Prod.fst
  ordered : script.calls.Ordered
  callsOf?_eq : ∀ step, script.callsOf? step =
    if step ∈ script.stepNames then some (callsUnder step written) else none

namespace Holds

theorem mem_keys_iff (h : script.Holds written) :
    step ∈ script.calls.keys ↔ step ∈ script.stepNames := by
  have hcalls : script.calls.get? step =
      if step ∈ script.stepNames then some (callsUnder step written) else none :=
    h.callsOf?_eq step
  rw [Table.mem_keys_iff h.ordered, hcalls]
  by_cases hmem : step ∈ script.stepNames <;> simp [hmem]

theorem unique (h : script.Holds written) (hfinal : final.Holds written) : script = final := by
  have hnames : script.stepNames = final.stepNames :=
    h.stepNames_eq.trans hfinal.stepNames_eq.symm
  have hcalls : script.calls = final.calls := by
    apply Table.eq_of_get?_eq h.ordered hfinal.ordered
    intro step
    show script.callsOf? step = final.callsOf? step
    rw [h.callsOf?_eq, hfinal.callsOf?_eq, hnames]
  cases script
  cases final
  exact congrArg₂ CallScript.mk hnames hcalls

theorem getD_callsOf? (h : script.Holds written) (step : String) :
    (script.callsOf? step).getD [] = callsUnder step written := by
  rw [h.callsOf?_eq]
  by_cases hmem : step ∈ script.stepNames
  · rw [if_pos hmem, Option.getD_some]
  · rw [if_neg hmem, Option.getD_none, callsUnder_eq_nil]
    rwa [h.stepNames_eq] at hmem

theorem openStep (h : script.Holds written) (name : String) :
    (script.openStep name).Holds (written ++ [(name, [])]) where
  stepNames_eq := by simp [CallScript.openStep, h.stepNames_eq]
  ordered := Table.ordered_insert h.ordered name _
  callsOf?_eq := by
    intro step
    have hunder : callsUnder step (written ++ [(name, [])]) = callsUnder step written := by
      rw [callsUnder_append, callsUnder_singleton, ite_self, List.append_nil]
    rw [callsOf?_openStep, h.getD_callsOf?, h.callsOf?_eq, hunder]
    by_cases heq : step = name
    · subst heq
      simp [CallScript.openStep]
    · simp [CallScript.openStep, heq]

theorem addCall (h : script.Holds (written ++ [(step, calls)])) (call : Call) :
    (script.addCall step call).Holds (written ++ [(step, calls ++ [call])]) where
  stepNames_eq := by simp [h.stepNames_eq]
  ordered := Table.ordered_insert h.ordered step _
  callsOf?_eq := by
    intro other
    have hopen : step ∈ script.stepNames := by simp [h.stepNames_eq]
    have hcalls := h.callsOf?_eq other
    rw [callsOf?_addCall, h.getD_callsOf?, stepNames_addCall]
    simp only [callsUnder_append, callsUnder_singleton] at hcalls ⊢
    by_cases heq : other = step
    · subst heq
      simp [hopen]
    · rw [if_neg heq, hcalls, if_neg (Ne.symm heq), if_neg (Ne.symm heq)]

end Holds

theorem holds_nil : Holds {} [] where
  stepNames_eq := rfl
  ordered := Table.ordered_empty
  callsOf?_eq := fun _ => rfl

theorem exists_holds (written : List (String × List Call)) : ∃ script, Holds script written := by
  have hcalls : ∀ {written script name calls}, Holds script (written ++ [(name, [])]) →
      ∃ final, Holds final (written ++ [(name, calls)]) := by
    intro written script name calls h
    induction calls using List.reverseRecOn with
    | nil => exact ⟨script, h⟩
    | append_singleton calls call ih =>
        obtain ⟨middle, hmiddle⟩ := ih
        exact ⟨_, hmiddle.addCall call⟩
  induction written using List.reverseRecOn with
  | nil => exact ⟨{}, holds_nil⟩
  | append_singleton written step ih =>
      obtain ⟨script, hscript⟩ := ih
      exact hcalls (hscript.openStep step.1)

/-! ## Reading sections -/

theorem areCalls_cons_iff {texts : List String} :
    AreCalls (text :: texts) calls ↔
      ∃ call more, Call.ofText text = .ok call ∧ AreCalls texts more ∧ calls = call :: more :=
  List.forall₂_cons_left_iff

theorem hasSections_step_iff {read : List (String × List Call)} :
    HasSections (.step name :: lines) read ↔ name ≠ "" ∧ ∃ calls others,
      AreCalls (callTexts lines) calls ∧ HasSections lines others ∧
        read = (name, calls) :: others := by
  constructor
  · intro h
    obtain ⟨⟨_, calls⟩, others, ⟨heq, hne, hcalls⟩, hothers, hread⟩ :=
      List.forall₂_cons_left_iff.mp h
    cases heq
    exact ⟨hne, calls, others, hcalls, hothers, hread⟩
  · rintro ⟨hne, calls, others, hcalls, hothers, rfl⟩
    exact .cons ⟨rfl, hne, hcalls⟩ hothers

theorem readLines_step_eq_ok_iff {step? : Option String} :
    readLines script step? (.step name :: lines) = .ok final ↔
      name ≠ "" ∧ readLines (script.openStep name) (some name) lines = .ok final := by
  by_cases hname : name = ""
  · subst hname
    simp [readLines]
  · simp [readLines, hname]

theorem readLines_call_eq_ok_iff :
    readLines script (some step) (.call text :: lines) = .ok final ↔ ∃ call,
      Call.ofText text = .ok call ∧
        readLines (script.addCall step call) (some step) lines = .ok final := by
  cases hcall : Call.ofText text <;> simp [readLines, hcall]

/-- Behind the sections that are closed the lines go on with the calls of the open one, and then
with sections of their own. -/
theorem readLines_some_eq_ok_iff (h : script.Holds (written ++ [(step, calls)])) :
    readLines script (some step) lines = .ok final ↔ ∃ more others,
      AreCalls (callTexts lines) more ∧ HasSections lines others ∧
        final.Holds (written ++ (step, calls ++ more) :: others) := by
  -- The open section stays the last one that is held: a call goes to its end, a step closes it.
  induction lines generalizing script written step calls with
  | nil =>
      constructor
      · intro hread
        cases hread
        exact ⟨[], [], .nil, .nil, by simpa using h⟩
      · rintro ⟨more, others, hmore, hothers, hfinal⟩
        cases hmore
        cases hothers
        rw [readLines, h.unique (by simpa using hfinal)]
  | cons line lines ih =>
      cases line with
      | step name =>
          rw [readLines_step_eq_ok_iff, ih (h.openStep name)]
          constructor
          · rintro ⟨hne, more, others, hmore, hothers, hfinal⟩
            exact ⟨[], _, .nil, hasSections_step_iff.mpr ⟨hne, more, others, hmore, hothers, rfl⟩,
              by simpa using hfinal⟩
          · rintro ⟨more, others, hmore, hsections, hfinal⟩
            cases hmore
            obtain ⟨hne, more, others, hmore, hothers, rfl⟩ := hasSections_step_iff.mp hsections
            exact ⟨hne, more, others, hmore, hothers, by simpa using hfinal⟩
      | skipped => exact ih h
      | call text =>
          rw [readLines_call_eq_ok_iff]
          constructor
          · rintro ⟨call, hcall, hread⟩
            obtain ⟨more, others, hmore, hothers, hfinal⟩ := (ih (h.addCall call)).mp hread
            exact ⟨call :: more, others, .cons hcall hmore, hothers, by simpa using hfinal⟩
          · rintro ⟨more, others, hcalls, hothers, hfinal⟩
            obtain ⟨call, more, hcall, hmore, rfl⟩ := areCalls_cons_iff.mp hcalls
            exact ⟨call, hcall, (ih (h.addCall call)).mpr
              ⟨more, others, hmore, hothers, by simpa using hfinal⟩⟩

/-- Lines are read as a script when they have sections, and as what the sections make. -/
theorem readLines_eq_ok_iff :
    readLines {} none lines = .ok final ↔ ∃ read, HasSections lines read ∧ final.Holds read := by
  induction lines with
  | nil =>
      constructor
      · intro hread
        cases hread
        exact ⟨[], .nil, holds_nil⟩
      · rintro ⟨read, hread, hfinal⟩
        cases hread
        rw [readLines, holds_nil.unique hfinal]
  | cons line lines ih =>
      cases line with
      | step name =>
          have hopened : (CallScript.openStep {} name).Holds ([] ++ [(name, [])]) :=
            holds_nil.openStep name
          rw [readLines_step_eq_ok_iff, readLines_some_eq_ok_iff hopened]
          constructor
          · rintro ⟨hne, more, others, hmore, hothers, hfinal⟩
            exact ⟨_, hasSections_step_iff.mpr ⟨hne, more, others, hmore, hothers, rfl⟩, hfinal⟩
          · rintro ⟨read, hsections, hfinal⟩
            obtain ⟨hne, more, others, hmore, hothers, rfl⟩ := hasSections_step_iff.mp hsections
            exact ⟨hne, more, others, hmore, hothers, hfinal⟩
      | skipped => exact ih
      | call text => exact ih

/-! ## The first fault -/

inductive IsFault (seen : List ScriptLine) : ScriptLine → CallScriptError → Prop
  | emptyName : IsFault seen (.step "") .emptyStepName
  | call {text : String} {why : CallError} (hopen : ∃ name, .step name ∈ seen)
      (h : Call.ofText text = .error why) : IsFault seen (.call text) (.call why)

/-- The error is the fault of a line behind those that are seen, and no line before it has one. -/
def IsFirstFault (seen lines : List ScriptLine) (e : CallScriptError) : Prop :=
  ∃ front line back, lines = front ++ line :: back ∧ IsFault (seen ++ front) line e ∧
    ∀ before earlier after, front = before ++ earlier :: after →
      ∀ e', ¬IsFault (seen ++ before) earlier e'

theorem not_isFirstFault_nil : ¬IsFirstFault seen [] e := by
  rintro ⟨front, line, back, hlines, -⟩
  cases front <;> cases hlines

theorem isFirstFault_cons :
    IsFirstFault seen (line :: lines) e ↔ IsFault seen line e ∨
      (∀ e', ¬IsFault seen line e') ∧ IsFirstFault (seen ++ [line]) lines e := by
  constructor
  · rintro ⟨front, faulty, back, hlines, hfault, hfront⟩
    cases front with
    | nil =>
        cases hlines
        left
        simpa using hfault
    | cons first front =>
        cases hlines
        right
        refine ⟨?_, front, faulty, back, rfl, by simpa using hfault, ?_⟩
        · simpa using hfront [] line front rfl
        · rintro before earlier after rfl e'
          simpa using hfront (line :: before) earlier after rfl e'
  · rintro (hfault | ⟨hfirst, front, faulty, back, rfl, hfault, hfront⟩)
    · exact ⟨[], line, lines, rfl, by simpa using hfault, by simp⟩
    · refine ⟨line :: front, faulty, back, rfl, by simpa using hfault, ?_⟩
      intro before earlier after hsplit e'
      cases before with
      | nil =>
          cases hsplit
          simpa using hfirst e'
      | cons first before =>
          cases hsplit
          simpa using hfront before earlier after rfl e'

theorem isFault_unique {fault : CallScriptError} (hfault : IsFault seen line fault)
    (h : IsFault seen line e) : fault = e := by
  cases hfault with
  | emptyName =>
      cases h
      rfl
  | call hopen hwhy =>
      cases h with
      | call hopen hother =>
          rw [hwhy] at hother
          cases hother
          rfl

theorem isFirstFault_cons_of_isFault {fault : CallScriptError} (hfault : IsFault seen line fault) :
    IsFirstFault seen (line :: lines) e ↔ fault = e := by
  rw [isFirstFault_cons]
  constructor
  · rintro (h | ⟨hnone, -⟩)
    · exact isFault_unique hfault h
    · exact absurd hfault (hnone fault)
  · rintro rfl
    exact .inl hfault

theorem isFirstFault_cons_of_not_isFault (hnone : ∀ e', ¬IsFault seen line e') :
    IsFirstFault seen (line :: lines) e ↔ IsFirstFault (seen ++ [line]) lines e := by
  rw [isFirstFault_cons]
  exact ⟨fun h => (h.resolve_left (hnone e)).2, fun h => .inr ⟨hnone, h⟩⟩

/-- Reading fails with the first fault, where a step is open exactly when one is seen. -/
theorem readLines_eq_error_iff {step? : Option String}
    (hopen : step?.isSome = true ↔ ∃ name, .step name ∈ seen) :
    readLines script step? lines = .error e ↔ IsFirstFault seen lines e := by
  induction lines generalizing script step? seen with
  | nil =>
      constructor
      · intro h
        cases h
      · intro h
        exact absurd h not_isFirstFault_nil
  | cons line lines ih =>
      cases line with
      | step name =>
          by_cases hname : name = ""
          · subst hname
            have hempty : "".isEmpty = true := by decide
            rw [isFirstFault_cons_of_isFault .emptyName, readLines, if_pos hempty,
              Except.error.injEq]
          · have hnone : ∀ e', ¬IsFault seen (.step name) e' := by
              intro e' hfault
              cases hfault
              exact hname rfl
            have hseen : (some name).isSome = true ↔
                ∃ other, ScriptLine.step other ∈ seen ++ [.step name] := by simp
            rw [isFirstFault_cons_of_not_isFault hnone, readLines, if_neg (by simpa using hname),
              ih hseen]
      | skipped =>
          have hseen : step?.isSome = true ↔
              ∃ other, ScriptLine.step other ∈ seen ++ [.skipped] := by simpa using hopen
          have hnone : ∀ e', ¬IsFault seen .skipped e' := nofun
          rw [isFirstFault_cons_of_not_isFault hnone, readLines, ih hseen]
      | call text =>
          have hseen : step?.isSome = true ↔
              ∃ other, ScriptLine.step other ∈ seen ++ [.call text] := by simpa using hopen
          cases step? with
          | none =>
              have hnone : ∀ e', ¬IsFault seen (.call text) e' := by
                intro e' hfault
                cases hfault with
                | call hopened => cases hopen.mpr hopened
              rw [isFirstFault_cons_of_not_isFault hnone, readLines, ih hseen]
          | some step =>
              cases hcall : Call.ofText text with
              | error why =>
                  rw [isFirstFault_cons_of_isFault (.call (hopen.mp rfl) hcall)]
                  simp only [readLines, hcall, Except.error.injEq]
              | ok call =>
                  have hnone : ∀ e', ¬IsFault seen (.call text) e' := by
                    intro e' hfault
                    cases hfault with
                    | call hopened hwhy =>
                        rw [hcall] at hwhy
                        cases hwhy
                  simp only [isFirstFault_cons_of_not_isFault hnone, readLines, hcall, ih hseen]

end CallScript

end MethodSynthesis
