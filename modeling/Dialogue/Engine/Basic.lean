import Dialogue.Engine.Context
import Dialogue.Host
import Dialogue.Scenario
import Dialogue.Settings

/-!
# Engines

An engine interprets one scenario.  Functions compute values, and actions do things;
both are looked up by name in registries to which a host can add its own.  Neither sees
the engine itself: a function is given the interpolation of values, an action a
`Director`, so both can be stated and studied without the recursion that ties them
together.
-/

namespace Dialogue

/-- How the value that a template stands for is found. -/
abbrev Interpolation (σ : Type) := Value → Eval σ Value

/-- A named computation.  Its parameters are interpolated before it runs, except the
deferred ones.  Keywords are the parameter names of its short notation. -/
structure Executor (σ : Type) where
  keywords : List String := []
  deferred : List String := []
  execute : Interpolation σ → Fields → Eval σ Value

/-- What an action can ask of the engine that runs it. -/
structure Director (σ : Type) where
  scenario : Scenario
  settings : Settings
  host : Host σ
  resolve : Value → Eval σ Value
  runGraph : Value → Eval σ Unit

/-- A named action; it is given the raw fields of its descriptor. -/
abbrev Processor (σ : Type) := Director σ → Fields → Eval σ Unit

/-- Actions of the library and actions of the host.  A host's action comes first, and the
one it registers as `*` takes every name that is otherwise unknown. -/
structure ActionRegistry (σ : Type) where
  library : Keyed (Processor σ) := []
  custom : Keyed (Processor σ) := []

/-- Adds an entry to a registry; an entry of the same name has to be overwritten
explicitly. -/
def register {α : Type} (label : RegistryLabel) (registry : Keyed α) (name : String)
    (entry : α) (overwrite : Bool) : Except Failure (Keyed α) :=
  if registry.has name && !overwrite then .error (.duplicate label name)
  else .ok (registry.put name entry)

namespace ActionRegistry

variable {σ : Type}

/-- The name under which a host takes every unknown action. -/
def wildcard : String := "*"

/-- The processor of an action. -/
def resolve? (r : ActionRegistry σ) (action : String) : Option (Processor σ) :=
  (r.custom.get? action).or ((r.library.get? action).or (r.custom.get? wildcard))

/-- Whether an action is registered by its own name. -/
def has (r : ActionRegistry σ) (action : String) : Bool :=
  r.custom.has action || r.library.has action

/-- The registered names, each once. -/
def names (r : ActionRegistry σ) : List String :=
  (r.library.mapValues (fun _ => ())).overlay (r.custom.mapValues fun _ => ()) |>.keys

/-- Adds an action of the host. -/
def add (r : ActionRegistry σ) (name : String) (processor : Processor σ) (overwrite : Bool) :
    Except Failure (ActionRegistry σ) :=
  (register .action r.custom name processor overwrite).map fun custom => { r with custom }

end ActionRegistry

/-- The interpreter of one scenario. -/
structure Engine (σ : Type) where
  scenario : Scenario
  settings : Settings := {}
  functions : Keyed (Executor σ)
  actions : ActionRegistry σ
  host : Host σ
  wallClock : WallClock := .ofStart 0

namespace Engine

variable {σ : Type}

/-- Refuses a scenario with a graph that is not well formed. -/
def checked (e : Engine σ) : Except Failure (Engine σ) :=
  match e.scenario.malformedGraph? with
  | some place => .error (.malformedGraph place)
  | none => .ok e

end Engine
end Dialogue
