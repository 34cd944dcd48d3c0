import MethodSynthesis.Proofs.Staleness
import MethodSynthesis.Scenario.Basic

/-!
# A scenario is one session

A scenario retrieves effective parameters afresh for every step. Since calls keep the structure of
the container and its version, what is retrieved is what the step before left behind, and the run is
that of one session whose parameters are synthesized once.
-/

namespace MethodSynthesis

/-! ## What calls keep -/

namespace EffectiveParameters

variable {api next after : EffectiveParameters}

/-- The same options and table over a container of the same structure and version. -/
structure Continues (api after : EffectiveParameters) : Prop where
  table : after = { api with parameters := after.parameters }
  shape : after.parameters.shape = api.parameters.shape
  version : after.parameters.version = api.parameters.version

theorem Continues.refl (api : EffectiveParameters) : api.Continues api := ⟨rfl, rfl, rfl⟩

theorem Continues.trans (h : api.Continues next) (hrest : next.Continues after) :
    api.Continues after where
  table := by rw [hrest.table, h.table]
  shape := hrest.shape.trans h.shape
  version := hrest.version.trans h.version

theorem Continues.methods_eq (h : api.Continues after) : after.methods = api.methods := by
  rw [h.table]

/-- However a call ends, what is behind it continues what was before. -/
theorem continues_call (api : EffectiveParameters) (method : String) (arguments : List Value) :
    api.Continues (api.call method arguments).2 := by
  have hstate : (report (api.call method arguments)).2 = (api.call method arguments).2 := by
    generalize api.call method arguments = outcome
    obtain ⟨result, after⟩ := outcome
    cases result <;> rfl
  obtain ⟨q, hq, hshape, hversion⟩ := (callEnds_call api method arguments).shape_version
  rw [hstate] at hq
  rw [hq]
  exact ⟨rfl, hshape, hversion⟩

theorem ofParameters_of_continues {p : Parameters} {options : SynthesisOptions}
    (hmade : ofParameters p options = .ok api) (h : api.Continues after) :
    ofParameters after.parameters options = .ok after := by
  obtain ⟨methods, hmethods, rfl⟩ := ofParameters_eq_ok_iff.mp hmade
  refine ofParameters_eq_ok_iff.mpr ⟨methods, ?_, ?_⟩
  · rw [Parameters.synthesize_eq_of_shape_eq h.shape, hmethods]
  · rw [h.version]
    exact h.table

end EffectiveParameters

theorem Operation.effectiveParameters_eq_ok_iff {operation : Operation} {options : SynthesisOptions}
    {api : EffectiveParameters} :
    operation.effectiveParameters options = .ok api ↔
      EffectiveParameters.ofParameters operation.parameters options = .ok api := by
  unfold effectiveParameters
  cases EffectiveParameters.ofParameters operation.parameters options <;> simp

namespace Scenario

open EffectiveParameters

variable {api session next : EffectiveParameters} {script : CallScript} {last : Value}
  {calls : List Call} {result : Except SynthesisError Value} {step : ScenarioStep}
  {steps : List ScenarioStep} {operation : Operation}

/-! ## Sessions -/

/-- Calls made one after the other on the same parameters, the rest abandoned behind an error. The
result is the answer of the last call that was made. -/
inductive CallsRun :
    EffectiveParameters → Value → List Call → Except SynthesisError Value → EffectiveParameters → Prop
  | finished (api : EffectiveParameters) (last : Value) : CallsRun api last [] (.ok last) api
  | answered {api next after : EffectiveParameters} {last value : Value} {call : Call}
      {calls : List Call} {result : Except SynthesisError Value}
      (hcall : api.call call.method call.arguments = (.ok value, next))
      (hrest : CallsRun next value calls result after) :
      CallsRun api last (call :: calls) result after
  | abandoned {api next : EffectiveParameters} {last : Value} {call : Call} {calls : List Call}
      {e : SynthesisError} (hcall : api.call call.method call.arguments = (.error e, next)) :
      CallsRun api last (call :: calls) (.error e) next

/-- Steps made one after the other on the same parameters, each with its result. -/
inductive SessionRun (script : CallScript) :
    EffectiveParameters → List ScenarioStep → List (Except SynthesisError Value) →
      EffectiveParameters → Prop
  | finished (api : EffectiveParameters) : SessionRun script api [] [] api
  | step {api next after : EffectiveParameters} {step : ScenarioStep} {steps : List ScenarioStep}
      {calls : List Call} {result : Except SynthesisError Value}
      {results : List (Except SynthesisError Value)}
      (hcalls : script.callsOf? step.name = some calls)
      (hrun : CallsRun api .null calls result next)
      (hrest : SessionRun script next steps results after) :
      SessionRun script api (step :: steps) (result :: results) after

theorem callsRun_iff :
    CallsRun api last calls result next ↔ runCalls last api calls = (result, next) := by
  constructor
  · intro hrun
    induction hrun with
    | finished api last => rfl
    | answered hcall hrest ih =>
        rw [runCalls, hcall]
        exact ih
    | abandoned hcall => rw [runCalls, hcall]
  · intro heq
    induction calls generalizing api last with
    | nil =>
        obtain ⟨rfl, rfl⟩ := Prod.mk.inj heq
        exact .finished api last
    | cons call rest ih =>
        rw [runCalls] at heq
        split at heq
        · rename_i value after hcall
          exact .answered hcall (ih heq)
        · rename_i e after hcall
          obtain ⟨rfl, rfl⟩ := Prod.mk.inj heq
          exact .abandoned hcall

theorem CallsRun.continues (hrun : CallsRun api last calls result next) : api.Continues next := by
  induction hrun with
  | finished api last => exact .refl api
  | @answered api next after last value call calls result hcall hrest ih =>
      have hstep := api.continues_call call.method call.arguments
      rw [hcall] at hstep
      exact hstep.trans ih
  | @abandoned api next last call calls e hcall =>
      have hstep := api.continues_call call.method call.arguments
      rwa [hcall] at hstep

theorem SessionRun.continues {results : List (Except SynthesisError Value)}
    (hrun : SessionRun script api steps results session) : api.Continues session := by
  induction hrun with
  | finished api => exact .refl api
  | step hcalls hrun hrest ih => exact hrun.continues.trans ih

theorem exists_sessionRun (script : CallScript) (api : EffectiveParameters)
    (hfound : ∀ step ∈ steps, ∃ calls, script.callsOf? step.name = some calls) :
    ∃ results session, SessionRun script api steps results session := by
  induction steps generalizing api with
  | nil => exact ⟨[], api, .finished api⟩
  | cons step rest ih =>
      obtain ⟨⟨calls, hcalls⟩, hrest⟩ := List.forall_mem_cons.mp hfound
      have hrun : CallsRun api .null calls _ _ := callsRun_iff.mpr rfl
      obtain ⟨results, session, hsession⟩ := ih _ hrest
      exact ⟨_, session, .step hcalls hrun hsession⟩

theorem effectiveParameters_of_continues (hsession : operation.effectiveParameters = .ok session)
    (hcontinues : session.Continues next) :
    Operation.effectiveParameters { operation with parameters := next.parameters } = .ok next :=
  Operation.effectiveParameters_eq_ok_iff.mpr
    (ofParameters_of_continues (Operation.effectiveParameters_eq_ok_iff.mp hsession) hcontinues)

theorem parameters_of_effectiveParameters
    (hsession : operation.effectiveParameters = .ok session) :
    session.parameters = operation.parameters := by
  obtain ⟨methods, -, rfl⟩ := ofParameters_eq_ok_iff.mp
    (Operation.effectiveParameters_eq_ok_iff.mp hsession)
  rfl

/-! ## Steps of a run -/

section Steps

-- Whatever engine reads the patterns of the assertions, the run is the same session.
variable [PatternEngine]

def Accepts (step : ScenarioStep) (result : Except SynthesisError Value) : Prop :=
  step.assertion.verify (stepResult result) = .ok ()

/-- How a step fails: the script does not have it, or its assertion rejects the result. -/
inductive StepFails (script : CallScript) (session : EffectiveParameters) (step : ScenarioStep) :
    ScenarioError → Prop
  | notFound (hcalls : script.callsOf? step.name = none) :
      StepFails script session step (.stepNotFound step.name)
  | rejected {calls : List Call} {result : Except SynthesisError Value}
      {next : EffectiveParameters} {failure : AssertionFailure}
      (hcalls : script.callsOf? step.name = some calls)
      (hrun : CallsRun session .null calls result next)
      (hverify : step.assertion.verify (stepResult result) = .error failure) :
      StepFails script session step (.assertionFailed step.name failure)

theorem runStep_eq_of_missing (hcalls : script.callsOf? step.name = none) :
    runStep script operation step = .error (.stepNotFound step.name) := by
  simp only [runStep, hcalls]
  rfl

/-- A step runs its calls on the session that the operation is in, and hands the result to the
assertion. -/
theorem runStep_eq_of_calls (hsession : operation.effectiveParameters = .ok session)
    (hcalls : script.callsOf? step.name = some calls)
    (hrun : CallsRun session .null calls result next) :
    runStep script operation step =
      match step.assertion.verify (stepResult result) with
      | .ok () => .ok { operation with parameters := next.parameters }
      | .error failure => .error (.assertionFailed step.name failure) := by
  simp only [runStep, hcalls, hsession, callsRun_iff.mp hrun]
  cases step.assertion.verify (stepResult result) <;> rfl

theorem runStep_eq_ok_iff {after : Operation}
    (hsession : operation.effectiveParameters = .ok session) :
    runStep script operation step = .ok after ↔
      ∃ calls result next, script.callsOf? step.name = some calls ∧
        CallsRun session .null calls result next ∧ Accepts step result ∧
        after = { operation with parameters := next.parameters } := by
  constructor
  · intro hok
    cases hcalls : script.callsOf? step.name with
    | none =>
        rw [runStep_eq_of_missing hcalls] at hok
        cases hok
    | some calls =>
        have hrun : CallsRun session .null calls _ _ := callsRun_iff.mpr rfl
        rw [runStep_eq_of_calls hsession hcalls hrun] at hok
        split at hok
        · rename_i haccepts
          cases hok
          exact ⟨calls, _, _, rfl, hrun, haccepts, rfl⟩
        · cases hok
  · intro ⟨calls, result, next, hcalls, hrun, haccepts, hafter⟩
    rw [runStep_eq_of_calls hsession hcalls hrun, haccepts, hafter]

theorem runStep_eq_error_iff {e : ScenarioError}
    (hsession : operation.effectiveParameters = .ok session) :
    runStep script operation step = .error e ↔ StepFails script session step e := by
  constructor
  · intro herror
    cases hcalls : script.callsOf? step.name with
    | none =>
        rw [runStep_eq_of_missing hcalls] at herror
        cases herror
        exact .notFound hcalls
    | some calls =>
        have hrun : CallsRun session .null calls _ _ := callsRun_iff.mpr rfl
        rw [runStep_eq_of_calls hsession hcalls hrun] at herror
        split at herror
        · cases herror
        · rename_i failure hverify
          cases herror
          exact .rejected hcalls hrun hverify
  · intro hfails
    cases hfails with
    | notFound hcalls => exact runStep_eq_of_missing hcalls
    | rejected hcalls hrun hverify => rw [runStep_eq_of_calls hsession hcalls hrun, hverify]

/-! ## Runs of steps -/

/-- A run of steps passes when the session over them has a result for each that its assertion
accepts; the operation then holds the container of the session. -/
theorem foldlM_runStep_eq_ok_iff {after : Operation}
    (hsession : operation.effectiveParameters = .ok session) :
    steps.foldlM (runStep script) operation = .ok after ↔
      ∃ results next, SessionRun script session steps results next ∧
        List.Forall₂ Accepts steps results ∧
        after = { operation with parameters := next.parameters } := by
  induction steps generalizing operation session with
  | nil =>
      rw [List.foldlM_nil, Outcomes.pure_eq_ok_iff]
      have hparameters := parameters_of_effectiveParameters hsession
      constructor
      · rintro rfl
        exact ⟨[], session, .finished session, .nil, by rw [hparameters]⟩
      · intro ⟨results, next, hrun, haccepts, hafter⟩
        cases hrun
        rw [hafter, hparameters]
  | cons step rest ih =>
      rw [List.foldlM_cons, Outcomes.bind_eq_ok_iff]
      constructor
      · intro ⟨middle, hstep, hrest⟩
        obtain ⟨calls, result, next, hcalls, hrun, haccepts, rfl⟩ :=
          (runStep_eq_ok_iff hsession).mp hstep
        have hnext := effectiveParameters_of_continues hsession hrun.continues
        obtain ⟨results, final, hsteps, haccept, hafter⟩ := (ih hnext).mp hrest
        exact ⟨result :: results, final, .step hcalls hrun hsteps, .cons haccepts haccept, hafter⟩
      · intro ⟨results, final, hsteps, haccept, hafter⟩
        cases hsteps with
        | step hcalls hrun hrest =>
            obtain ⟨haccepts, haccept⟩ := List.forall₂_cons.mp haccept
            have hnext := effectiveParameters_of_continues hsession hrun.continues
            exact ⟨_, (runStep_eq_ok_iff hsession).mpr ⟨_, _, _, hcalls, hrun, haccepts, rfl⟩,
              (ih hnext).mpr ⟨_, final, hrest, haccept, hafter⟩⟩

/-- A run of steps fails with the first step of the session that fails. -/
theorem foldlM_runStep_eq_error_iff {e : ScenarioError}
    (hsession : operation.effectiveParameters = .ok session) :
    steps.foldlM (runStep script) operation = .error e ↔
      ∃ before step later results next, steps = before ++ step :: later ∧
        SessionRun script session before results next ∧ List.Forall₂ Accepts before results ∧
        StepFails script next step e := by
  rw [Outcomes.foldlM_eq_error_iff]
  constructor
  · intro ⟨before, step, later, middle, hsplit, hbefore, hstep⟩
    obtain ⟨results, next, hrun, haccepts, rfl⟩ := (foldlM_runStep_eq_ok_iff hsession).mp hbefore
    have hnext := effectiveParameters_of_continues hsession hrun.continues
    exact ⟨before, step, later, results, next, hsplit, hrun, haccepts,
      (runStep_eq_error_iff hnext).mp hstep⟩
  · intro ⟨before, step, later, results, next, hsplit, hrun, haccepts, hfails⟩
    have hnext := effectiveParameters_of_continues hsession hrun.continues
    exact ⟨before, step, later, _, hsplit,
      (foldlM_runStep_eq_ok_iff hsession).mpr ⟨results, next, hrun, haccepts, rfl⟩,
      (runStep_eq_error_iff hnext).mpr hfails⟩

theorem run_eq_foldlM {s : Scenario} {definition : Definition} (files : Files)
    (hdefinition : s.definition = some definition) (hscript : s.script = some script)
    (hbuilt : Operation.ofDefinition s.name definition = .ok operation) :
    s.run files = s.steps.foldlM (runStep script) operation := by
  have hsetUp : s.setUp definition = .ok operation := by simp only [setUp, hbuilt]
  simp only [run, loadScript, hscript, loadDefinition, hdefinition]
  simp only [bind, Except.bind, hsetUp]

/-- A scenario whose operation is built and synthesized runs like one session whose parameters are
synthesized at the start: at every point of the session synthesis gives what the session holds, each
step hands the result of its calls in the session to its assertion, and the run passes or fails as
the assertions accept the results, with the error of the first step that fails. -/
theorem run_session_exact (s : Scenario) (files : Files) (definition : Definition)
    (script : CallScript) (operation : Operation) (api : EffectiveParameters)
    (given : s.definition = some definition) (scripted : s.script = some script)
    (built : Operation.ofDefinition s.name definition = .ok operation)
    (synthesized : operation.effectiveParameters = .ok api) :
    (∀ steps results session, SessionRun script api steps results session →
      Operation.effectiveParameters { operation with parameters := session.parameters } =
          .ok session ∧
        session.methods = api.methods) ∧
    (∀ steps, (∀ step ∈ steps, ∃ calls, script.callsOf? step.name = some calls) →
      ∃ results session, SessionRun script api steps results session) ∧
    (∀ before step later, s.steps = before ++ step :: later →
      ∀ reached, before.foldlM (runStep script) operation = .ok reached →
        ∃ results session, SessionRun script api before results session ∧
          reached.effectiveParameters = .ok session ∧
          (script.callsOf? step.name = none →
            s.run files = .error (.stepNotFound step.name)) ∧
          ∀ calls, script.callsOf? step.name = some calls →
            ∃ result next, CallsRun session .null calls result next ∧
              (calls = [] → result = .ok .null) ∧
              runStep script reached step =
                match step.assertion.verify (stepResult result) with
                | .ok () => .ok { operation with parameters := next.parameters }
                | .error failure => .error (.assertionFailed step.name failure)) ∧
    (∀ final, s.run files = .ok final ↔
      ∃ results session, SessionRun script api s.steps results session ∧
        List.Forall₂ Accepts s.steps results ∧
        final = { operation with parameters := session.parameters }) ∧
    (∀ e, s.run files = .error e ↔
      ∃ before step later results session, s.steps = before ++ step :: later ∧
        SessionRun script api before results session ∧ List.Forall₂ Accepts before results ∧
        StepFails script session step e) := by
  have hrun := run_eq_foldlM files given scripted built
  have hsession : ∀ steps results session, SessionRun script api steps results session →
      Operation.effectiveParameters { operation with parameters := session.parameters } =
        .ok session :=
    fun _ _ _ hsteps => effectiveParameters_of_continues synthesized hsteps.continues
  refine ⟨fun steps results session hsteps => ⟨hsession _ _ _ hsteps, hsteps.continues.methods_eq⟩,
    fun steps => exists_sessionRun script api, fun before step later hsplit reached hbefore => ?_,
    fun final => ?_, fun e => ?_⟩
  · obtain ⟨results, session, hsteps, haccepts, rfl⟩ :=
      (foldlM_runStep_eq_ok_iff synthesized).mp hbefore
    refine ⟨results, session, hsteps, hsession _ _ _ hsteps, fun hmissing => ?_,
      fun calls hcalls => ?_⟩
    · rw [hrun]
      exact (foldlM_runStep_eq_error_iff synthesized).mpr
        ⟨before, step, later, results, session, hsplit, hsteps, haccepts, .notFound hmissing⟩
    · have hcallsRun : CallsRun session .null calls _ _ := callsRun_iff.mpr rfl
      refine ⟨_, _, hcallsRun, ?_, runStep_eq_of_calls (hsession _ _ _ hsteps) hcalls hcallsRun⟩
      rintro rfl
      rfl
  · rw [hrun]
    exact foldlM_runStep_eq_ok_iff synthesized
  · rw [hrun]
    exact foldlM_runStep_eq_error_iff synthesized

end Steps

/-- A counter that is set, then refuses a value with an error of an expected pattern, which abandons
a call; the steps behind it see what was set before, and one step has no calls. -/
def counter : Scenario where
  name := "Counter"
  definition := some { name := "counter", items := [{ name := "count", type := .int }] }
  script := some
    { stepNames := ["set", "look", "rest"]
      calls := ⟨[("look", [⟨"count", []⟩]), ("rest", []),
        ("set", [⟨"setCount", [.int 3]⟩, ⟨"setCount", [.bool true]⟩, ⟨"setCount", [.int 5]⟩])]⟩ }
  steps :=
    [⟨"set", { errorPattern := some "expected \\w+, got" }⟩, ⟨"rest", { null := true }⟩,
      ⟨"look", { value := some (.int 3) }⟩]

theorem run_session_exact_counter :
    ∃ definition script operation api results session,
      counter.definition = some definition ∧ counter.script = some script ∧
        Operation.ofDefinition "Counter" definition = .ok operation ∧
        operation.effectiveParameters = .ok api ∧
        SessionRun script api counter.steps results session ∧
        List.Forall₂ Accepts counter.steps results ∧
        counter.run {} = .ok { operation with parameters := session.parameters } := by
  obtain ⟨api, hmade⟩ := Outcomes.exists_of_isOk (x := Operation.ofDefinition "Counter"
    { name := "counter", items := [{ name := "count", type := .int }] } >>=
      fun operation => operation.effectiveParameters) (by decide +kernel)
  obtain ⟨operation, built, synthesized⟩ := Outcomes.bind_eq_ok_iff.mp hmade
  obtain ⟨final, hfinal⟩ := Outcomes.exists_of_isOk (x := counter.run {}) (by decide +kernel)
  obtain ⟨-, -, -, hpasses, -⟩ :=
    run_session_exact counter {} _ _ operation api rfl rfl built synthesized
  obtain ⟨results, session, hsteps, haccepts, rfl⟩ := (hpasses final).mp hfinal
  exact ⟨_, _, operation, api, results, session, rfl, rfl, built, synthesized, hsteps, haccepts,
    hfinal⟩

end Scenario

end MethodSynthesis
