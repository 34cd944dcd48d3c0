import MethodSynthesis.Proofs.CallLocality
import MethodSynthesis.Proofs.LastWriteWins

/-!
# Runs of commands

What is done to effective parameters between their synthesis and their end: changes of the
container, calls, shortcuts by item and renewals of the table, in any order. A call keeps the
structure of the container and its version.
-/

namespace MethodSynthesis

inductive Command where
  | change (change : ParametersChange)
  | call (method : String) (arguments : List Value)
  | setValue (item : String) (slot : Nat) (value : Value)
  | value (item : String) (slot : Nat)
  | enable (item : String) (enabled : Bool)
  | isEnabled (item : String)
  | setDiscreteIndex (item : String) (slot choice : Nat)
  | discreteIndex (item : String) (slot : Nat)
  | resynthesize

namespace Command

/-- Calls by the name of a method and by the name of an item. -/
def IsCall : Command → Prop
  | .change _ | .resynthesize => False
  | _ => True

def isStructural : Command → Bool
  | .change (.write _ _) => false
  | .change _ => true
  | _ => false

end Command

namespace EffectiveParameters

/-- The error of an outcome, if there is one, and the state behind it. -/
def report {α : Type} (outcome : Except SynthesisError α × EffectiveParameters) :
    Option SynthesisError × EffectiveParameters :=
  match outcome with
  | (.error e, api) => (some e, api)
  | (.ok _, api) => (none, api)

def perform (api : EffectiveParameters) : Command → Option SynthesisError × EffectiveParameters
  | .change c => (none, { api with parameters := api.parameters.change c })
  | .call method arguments => report (api.call method arguments)
  | .setValue item slot v => report (api.setValue item slot v)
  | .value item slot => report (api.value item slot)
  | .enable item enabled => report (api.enable item enabled)
  | .isEnabled item => report (api.isEnabled item)
  | .setDiscreteIndex item slot choice => report (api.setDiscreteIndex item slot choice)
  | .discreteIndex item slot => report (api.discreteIndex item slot)
  | .resynthesize => report api.resynthesize

/-- The state behind a run of commands; a command that fails does not end the run. -/
def performAll (api : EffectiveParameters) (commands : List Command) : EffectiveParameters :=
  commands.foldl (fun api command => (api.perform command).2) api

theorem performAll_append_singleton (api : EffectiveParameters) (commands : List Command)
    (command : Command) :
    api.performAll (commands ++ [command]) = ((api.performAll commands).perform command).2 := by
  simp [performAll]

/-! ## What a call can do -/

@[simp] theorem report_mapResult {α β : Type} (f : α → β)
    (outcome : Except SynthesisError α × EffectiveParameters) :
    report (mapResult f outcome) = report outcome := by
  obtain ⟨result, after⟩ := outcome
  cases result <;> rfl

inductive CallEnds (api : EffectiveParameters) : Option SynthesisError × EffectiveParameters → Prop
  | unknown (method : String) : CallEnds api (some (.unknownMethod method), api)
  | failed {name method : String} {binding : Binding} {arguments : List Value} {e : SynthesisError}
      {q : Parameters} (hget : api.methods.get? name = some binding)
      (hends : binding.Ends method api.parameters arguments (.error e, q)) :
      CallEnds api (some e, { api with parameters := q })
  | answered {name method : String} {binding : Binding} {arguments : List Value} {v : Value}
      {q : Parameters} (hget : api.methods.get? name = some binding)
      (hends : binding.Ends method api.parameters arguments (.ok v, q)) :
      CallEnds api (none, { api with parameters := q })

theorem callEnds_call (api : EffectiveParameters) (method : String) (arguments : List Value) :
    api.CallEnds (report (api.call method arguments)) := by
  unfold call
  cases hget : api.methods.get? method with
  | none => exact .unknown method
  | some binding =>
      have hends := binding.ends_invoke method api.parameters arguments
      dsimp only
      generalize binding.invoke method api.parameters arguments = outcome at hends ⊢
      obtain ⟨result, q⟩ := outcome
      cases result with
      | error e => exact .failed hget hends
      | ok v => exact .answered hget hends

theorem callEnds_callItem (api : EffectiveParameters) (item : String) (kind : MethodKind)
    (arguments : List Value) : api.CallEnds (report (api.callItem item kind arguments)) := by
  unfold callItem
  split
  · exact .unknown _
  · exact callEnds_call api _ arguments

inductive Ends (api : EffectiveParameters) :
    Command → Option SynthesisError × EffectiveParameters → Prop
  | changed (c : ParametersChange) :
      Ends api (.change c) (none, { api with parameters := api.parameters.change c })
  | renewed {methods : MethodTable} (h : api.parameters.synthesize api.options = .ok methods) :
      Ends api .resynthesize
        (none, { api with methods, synthesizedVersion := api.parameters.version })
  | notRenewed {e : SynthesisError} (h : api.parameters.synthesize api.options = .error e) :
      Ends api .resynthesize (some e, api)
  | called {command : Command} {outcome : Option SynthesisError × EffectiveParameters}
      (hcall : command.IsCall) (hends : api.CallEnds outcome) : Ends api command outcome

theorem ends_perform (api : EffectiveParameters) (command : Command) :
    api.Ends command (api.perform command) := by
  cases command with
  | change c => exact .changed c
  | resynthesize =>
      cases h : api.parameters.synthesize api.options with
      | ok methods => simpa only [perform, resynthesize, h, report] using Ends.renewed h
      | error e => simpa only [perform, resynthesize, h, report] using Ends.notRenewed h
  | call method arguments => exact .called trivial (callEnds_call api method arguments)
  | value item slot => exact .called trivial (callEnds_callItem api item _ _)
  | setValue item slot v =>
      rw [perform, setValue, report_mapResult]
      exact .called trivial (callEnds_callItem api item _ _)
  | enable item enabled =>
      rw [perform, enable, report_mapResult]
      exact .called trivial (callEnds_callItem api item _ _)
  | isEnabled item =>
      rw [perform, isEnabled, report_mapResult]
      exact .called trivial (callEnds_callItem api item _ _)
  | setDiscreteIndex item slot choice =>
      rw [perform, setDiscreteIndex, report_mapResult]
      exact .called trivial (callEnds_callItem api item _ _)
  | discreteIndex item slot =>
      rw [perform, discreteIndex, report_mapResult]
      exact .called trivial (callEnds_callItem api item _ _)

end EffectiveParameters

/-! ## Structure and version -/

/-- However an invocation ends, it keeps the structure and the version. -/
theorem Binding.Ends.shape_version {binding : Binding} {method : String} {p : Parameters}
    {arguments : List Value} {outcome : Except SynthesisError Value × Parameters}
    (h : binding.Ends method p arguments outcome) :
    outcome.2.shape = p.shape ∧ outcome.2.version = p.version := by
  cases h with
  | missing => exact ⟨rfl, rfl⟩
  | unfit => exact ⟨rfl, rfl⟩
  | unread => exact ⟨rfl, rfl⟩
  | unwritten => exact ⟨rfl, rfl⟩
  | read => exact ⟨rfl, rfl⟩
  | written hfind hmakes hwrite =>
      exact ⟨Parameters.map_items_update hfind (Item.write_shape hwrite),
        Parameters.version_update p _ _⟩

theorem EffectiveParameters.CallEnds.shape_version {api : EffectiveParameters}
    {outcome : Option SynthesisError × EffectiveParameters} (h : api.CallEnds outcome) :
    ∃ q, outcome.2 = { api with parameters := q } ∧ q.shape = api.parameters.shape ∧
      q.version = api.parameters.version := by
  cases h with
  | unknown method => exact ⟨api.parameters, rfl, rfl, rfl⟩
  | failed hget hends => exact ⟨_, rfl, hends.shape_version⟩
  | answered hget hends => exact ⟨_, rfl, hends.shape_version⟩

end MethodSynthesis
