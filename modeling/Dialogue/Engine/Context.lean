import Dialogue.Callbacks
import Dialogue.Failure
import Dialogue.Scope
import Dialogue.Session.Agenda

/-!
# Contexts and evaluations

While an event is handled its session is checked out of the store into a context,
together with the variables that are in scope and everything else that handling can
change.  An evaluation is a computation over a context.  It ends with a value, with a
failure, or because it nested deeper than its bound; the changes that it made to the
context stay in every case.
-/

namespace Dialogue

/-- Everything that the handling of an event can read or change.  `effects` are the
actions that functions asked for and that have not been dispatched yet. -/
structure Context (σ : Type) where
  session : Session
  env : Fields
  params : Fields := []
  scope : Scope := .empty
  effects : List Value := []
  agenda : Agenda
  callbacks : CallbackTable
  outside : σ

/-- Why an evaluation has no value. -/
inductive Stop where
  | failed (failure : Failure)
  | exhausted

/-- A computation over a context that keeps its changes also when it stops. -/
abbrev Eval (σ α : Type) := ExceptT Stop (StateM (Context σ)) α

namespace Eval

variable {σ α β : Type}

/-- What an evaluation does to a context. -/
def on (x : Eval σ α) (ctx : Context σ) : Except Stop α × Context σ :=
  x.run.run ctx

/-- An evaluation from what it does to a context. -/
def make (f : Context σ → Except Stop α × Context σ) : Eval σ α :=
  ExceptT.mk f

/-- Stops with a failure. -/
def fail (failure : Failure) : Eval σ α :=
  throw (.failed failure)

/-- Stops because the bound on nesting is used up. -/
def exhausted : Eval σ α :=
  throw .exhausted

/-- A result that is already known. -/
def ofExcept (result : Except Failure α) : Eval σ α :=
  match result with
  | .ok a => pure a
  | .error failure => fail failure

/-- Reads the context. -/
def ask (f : Context σ → α) : Eval σ α :=
  make fun ctx => (.ok (f ctx), ctx)

/-- Changes the context. -/
def update (f : Context σ → Context σ) : Eval σ Unit :=
  make fun ctx => (.ok (), f ctx)

/-- Reads and changes the context at once. -/
def change (f : Context σ → α × Context σ) : Eval σ α :=
  make fun ctx => (.ok (f ctx).1, (f ctx).2)

/-- Continues with the outcome of an evaluation, whatever it was. -/
def thenAlways (x : Eval σ α) (k : Except Stop α → Eval σ β) : Eval σ β :=
  make fun ctx => (k (x.on ctx).1).on (x.on ctx).2

/-- Continues after a failure that satisfies a condition. -/
def recover (x : Eval σ α) (condition : Failure → Bool) (k : Failure → Eval σ α) : Eval σ α :=
  x.thenAlways fun outcome => match outcome with
    | .ok a => pure a
    | .error (.failed failure) => if condition failure then k failure else fail failure
    | .error .exhausted => exhausted

/-- Runs an evaluation in a changed context and mends the context afterwards, whatever
the outcome was.  `leave` is given the context before and the context after. -/
def within (enter : Context σ → Context σ) (leave : Context σ → Context σ → Context σ)
    (x : Eval σ α) : Eval σ α :=
  make fun ctx => ((x.on (enter ctx)).1, leave ctx (x.on (enter ctx)).2)

/-- Runs an evaluation in a scope of its own. -/
def inScope (enter : Scope → Scope) (x : Eval σ α) : Eval σ α :=
  within (fun ctx => { ctx with scope := enter ctx.scope })
    (fun before after => { after with scope := after.scope.restore before.scope.depth }) x

/-- Runs an evaluation with an extra frame of variables. -/
def withLocals (locals : Fields) (x : Eval σ α) : Eval σ α :=
  inScope (fun scope => scope.push locals) x

/-- Runs an evaluation in the frame of an action. -/
def withAction (fields : Fields) (x : Eval σ α) : Eval σ α :=
  inScope (fun scope => scope.pushAction fields) x

/-- Runs an evaluation with other parameters. -/
def withParams (params : Fields) (x : Eval σ α) : Eval σ α :=
  within (fun ctx => { ctx with params })
    (fun before after => { after with params := before.params }) x

/-- Changes the session. -/
def changeSession (f : Session → α × Session) : Eval σ α :=
  change fun ctx => ((f ctx.session).1, { ctx with session := (f ctx.session).2 })

/-- Changes the session and answers nothing. -/
def updateSession (f : Session → Session) : Eval σ Unit :=
  update fun ctx => { ctx with session := f ctx.session }

/-- Writes a value into the session's data, or fails with the failure of the obstacle. -/
def saveData (path : String) (value : Value) (failure : Path.Obstacle → Failure) : Eval σ Unit :=
  make fun ctx =>
    match ctx.session.setData path value with
    | .ok session => (.ok (), { ctx with session })
    | .error obstacle => (.error (.failed (failure obstacle)), ctx)

/-- Takes the queued effects away. -/
def takeEffects : Eval σ (List Value) :=
  change fun ctx => (ctx.effects, { ctx with effects := [] })

/-- Queues an effect behind the others. -/
def queueEffect (effect : Value) : Eval σ Unit :=
  update fun ctx => { ctx with effects := ctx.effects ++ [effect] }

end Eval
end Dialogue
