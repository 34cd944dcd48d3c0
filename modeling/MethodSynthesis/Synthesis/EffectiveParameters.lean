import MethodSynthesis.Synthesis.Invocation

/-!
# Effective parameters

A container together with the method table synthesized from it. The table is not renewed when the
container changes; the container's version tells whether it has changed since.
-/

namespace MethodSynthesis

structure EffectiveParameters where
  parameters : Parameters
  options : SynthesisOptions
  methods : MethodTable
  synthesizedVersion : Nat
  deriving DecidableEq

namespace EffectiveParameters

def ofParameters (p : Parameters) (options : SynthesisOptions := {}) :
    Except SynthesisError EffectiveParameters := do
  let methods ← p.synthesize options
  return ⟨p, options, methods, p.version⟩

def isStale (api : EffectiveParameters) : Bool :=
  api.parameters.version ≠ api.synthesizedVersion

/-- Renews the table; when that fails the old one stays. -/
def resynthesize (api : EffectiveParameters) : Except SynthesisError Unit × EffectiveParameters :=
  match api.parameters.synthesize api.options with
  | .ok methods => (.ok (), { api with methods, synthesizedVersion := api.parameters.version })
  | .error e => (.error e, api)

def call (api : EffectiveParameters) (method : String) (arguments : List Value) :
    Except SynthesisError Value × EffectiveParameters :=
  match api.methods.get? method with
  | none => (.error (.unknownMethod method), api)
  | some binding =>
      let (result, parameters) := binding.invoke method api.parameters arguments
      (result, { api with parameters })

/-! ## Shortcuts by item -/

def callItem (api : EffectiveParameters) (item : String) (kind : MethodKind)
    (arguments : List Value) : Except SynthesisError Value × EffectiveParameters :=
  match api.methods.methodFor? item kind with
  | none => (.error (.unknownMethod (kind.name ++ " of " ++ item)), api)
  | some method => api.call method arguments

def mapResult (f : α → β) (outcome : Except SynthesisError α × EffectiveParameters) :
    Except SynthesisError β × EffectiveParameters :=
  (outcome.1.map f, outcome.2)

def setValue (api : EffectiveParameters) (item : String) (slot : Nat) (value : Value) :
    Except SynthesisError Unit × EffectiveParameters :=
  mapResult (fun _ => ()) (api.callItem item .setValue [.ofIndex slot, value])

def value (api : EffectiveParameters) (item : String) (slot : Nat) :
    Except SynthesisError Value × EffectiveParameters :=
  api.callItem item .value [.ofIndex slot]

def enable (api : EffectiveParameters) (item : String) (enabled : Bool) :
    Except SynthesisError Unit × EffectiveParameters :=
  mapResult (fun _ => ()) (api.callItem item .enable [.bool enabled])

def isEnabled (api : EffectiveParameters) (item : String) :
    Except SynthesisError Bool × EffectiveParameters :=
  mapResult (fun v => v.bool?.getD false) (api.callItem item .isEnabled [])

def setDiscreteIndex (api : EffectiveParameters) (item : String) (slot choice : Nat) :
    Except SynthesisError Unit × EffectiveParameters :=
  mapResult (fun _ => ()) (api.callItem item .setDiscreteIndex [.ofIndex slot, .ofIndex choice])

def discreteIndex (api : EffectiveParameters) (item : String) (slot : Nat) :
    Except SynthesisError (Option Nat) × EffectiveParameters :=
  mapResult Value.index? (api.callItem item .discreteIndex [.ofIndex slot])

end EffectiveParameters

end MethodSynthesis
