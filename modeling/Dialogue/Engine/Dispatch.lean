import Dialogue.Engine.Interpolation

/-!
# Dispatch

A graph runs its entries in order, each to its end before the next starts, and stops at
the first failure.  An entry that names an action runs the action's processor in a frame
that holds its raw fields; an entry that names a function is evaluated for its effects.
Entries of any other form and unknown actions are skipped.  A transport failure ends the
action that met it and nothing else.

Effects are the actions that functions asked for.  They are dispatched as soon as the
value that asked for them is complete, in the order in which they were queued; if the
value fails, they are dropped.
-/

namespace Dialogue

namespace Eval

variable {σ α : Type}

/-- Ends as another evaluation ended. -/
def ofOutcome : Except Stop α → Eval σ α
  | .ok a => pure a
  | .error stop => throw stop

end Eval

namespace Director

variable {σ : Type}

/-- Leaves every menu and runs the start actions. -/
def restart (d : Director σ) : Eval σ Unit := do
  Eval.updateSession fun session => { session with navigation := session.navigation.reset }
  d.runGraph d.scenario.startActions

/-- Runs a graph with an extra frame of variables. -/
def runGraphWithLocals (d : Director σ) (graph : Value) (locals : Fields) : Eval σ Unit :=
  Eval.withLocals locals (d.runGraph graph)

/-- Runs a graph with other parameters. -/
def runGraphWithParams (d : Director σ) (graph : Value) (params : Fields) : Eval σ Unit :=
  Eval.withParams params (d.runGraph graph)

end Director

namespace Engine

variable {σ : Type}

/-- Evaluates, and dispatches the effects that were queued. -/
def flushWith (runAction : Value → Eval σ Unit) (x : Eval σ Value) : Eval σ Value :=
  x.thenAlways fun outcome => do
    let effects ← Eval.takeEffects
    let value ← Eval.ofOutcome outcome
    effects.forM runAction
    return value

/-- Runs the entries of a graph in order. -/
def runGraphWith (runAction : Value → Eval σ Unit) (graph : Value) : Eval σ Unit :=
  graph.graphItems.forM runAction

/-- What the actions of this engine are given. -/
def directorWith (e : Engine σ) (self : Interpolation σ) (runAction : Value → Eval σ Unit) :
    Director σ where
  scenario := e.scenario
  settings := e.settings
  host := e.host
  resolve value := flushWith runAction (self value)
  runGraph := runGraphWith runAction

/-- Whether a failure is one of the transport. -/
def isTransport (failure : Failure) : Bool := failure.kind == .transport

/-- Runs one entry of a graph. -/
def runActionWith (e : Engine σ) (self : Interpolation σ) (runAction : Value → Eval σ Unit)
    (descriptor : Value) : Eval σ Unit :=
  match descriptor with
  | .object fields =>
    match Value.nameUnder Value.actionKey fields with
    | none =>
      if descriptor.isFunction then
        discard (flushWith runAction (e.evaluateFieldsWith self fields))
      else pure ()
    | some action =>
      match e.actions.resolve? action with
      | none => pure ()
      | some processor =>
        (Eval.withAction (Keyed.drop Value.actionKey fields)
          (processor (e.directorWith self runAction) fields)).recover isTransport
          fun _ => pure ()
  | _ => pure ()

/-- Runs one entry of a graph; `bound` limits the nesting. -/
def runAction (e : Engine σ) : Nat → Value → Eval σ Unit
  | 0, _ => Eval.exhausted
  | bound + 1, descriptor =>
    e.runActionWith (e.interpolate bound) (e.runAction bound) descriptor

/-- What the engine offers to a host or an action, with a bound on nesting. -/
def director (e : Engine σ) (bound : Nat) : Director σ :=
  e.directorWith (e.interpolate bound) (e.runAction bound)

/-- Runs a graph; `bound` limits the nesting. -/
def runGraph (e : Engine σ) (bound : Nat) (graph : Value) : Eval σ Unit :=
  (e.director bound).runGraph graph

/-- Interpolates a value and dispatches the effects. -/
def resolve (e : Engine σ) (bound : Nat) (value : Value) : Eval σ Value :=
  (e.director bound).resolve value

/-- Evaluates a function descriptor and dispatches the effects. -/
def evaluateFunction (e : Engine σ) (bound : Nat) (descriptor : Value) : Eval σ Value :=
  flushWith (e.runAction bound) (e.evaluate bound descriptor)

/-- Leaves every menu and runs the start actions. -/
def restart (e : Engine σ) (bound : Nat) : Eval σ Unit :=
  (e.director bound).restart

end Engine
end Dialogue
