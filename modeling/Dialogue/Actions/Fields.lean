import Dialogue.Engine.Dispatch

/-!
# Fields of actions

An action reads the fields of its descriptor one by one.  A field is resolved when it is
read, so its effects take place then; a graph is taken as it stands and resolved only
when it runs.  A field that is null counts as missing.
-/

namespace Dialogue

/-- The fields of an action, with what it needs to read them. -/
structure ActionFields (σ : Type) where
  action : String
  director : Director σ
  fields : Fields

namespace ActionFields

variable {σ : Type}

/-- Fails because a field is not what it has to be. -/
def invalid {α : Type} (f : ActionFields σ) (name expected : String) : Eval σ α :=
  Eval.fail (.invalidField f.action name expected)

/-- The value of a field. -/
def value (f : ActionFields σ) (name : String) : Eval σ Value :=
  match f.fields.get? name with
  | some raw => f.director.resolve raw
  | none => return .null

/-- The text of a field. -/
def text? (f : ActionFields σ) (name : String) : Eval σ (Option String) := do
  let value ← f.value name
  return if value.isNull then none else some value.toText

/-- The text of a field that has to be there and not be empty. -/
def requiredText (f : ActionFields σ) (name : String) : Eval σ String := do
  match ← f.text? name with
  | some text => if text.isEmpty then Eval.fail (.missingField f.action name) else return text
  | none => Eval.fail (.missingField f.action name)

/-- A flag. -/
def flag (f : ActionFields σ) (name : String) (default : Bool) : Eval σ Bool := do
  let value ← f.value name
  return if value.isNull then default else value.toBool

/-- A span of time in seconds. -/
def seconds? (f : ActionFields σ) (name : String) : Eval σ (Option Nanos) := do
  let value ← f.value name
  if value.isNull then return none
  else
    match value.toNumber?.bind Nanos.ofFloatSeconds? with
    | some span => return some span
    | none => f.invalid name "a non-negative number of seconds"

/-- An object; nothing stands for the empty one. -/
def object (f : ActionFields σ) (name : String) : Eval σ Fields := do
  match ← f.value name with
  | .null => return []
  | .object fields => return fields
  | _ => f.invalid name "an object"

/-- A graph, as it stands. -/
def graph (f : ActionFields σ) (name : String) : Value := (f.fields.get? name).getD .null

end ActionFields

namespace Director

variable {σ : Type}

/-- Lets the host do something to a message of the session. -/
def onHost {α : Type} (operation : σ → String → Except Failure α × σ) : Eval σ α := do
  let result ← Eval.change fun ctx =>
    let (result, outside) := operation ctx.outside ctx.session.id
    (result, { ctx with outside })
  Eval.ofExcept result

/-- Sends a message. -/
def send (d : Director σ) (text : String) (options : OutputOptions) : Eval σ MessageId :=
  onHost fun outside id => d.host.send outside id text options

/-- Edits a message. -/
def edit (d : Director σ) (message : MessageId) (text : String) (options : OutputOptions) :
    Eval σ Unit :=
  onHost fun outside id => d.host.edit outside id message text options

/-- Deletes a message; that it is gone already is no failure. -/
def delete (d : Director σ) (message : MessageId) : Eval σ Unit := do
  (onHost fun outside id => d.host.delete outside id message).recover Failure.isGone fun _ =>
    return ()
  Eval.updateSession fun session => session.forgetMessage message

end Director

/-- Adds a callback to the table. -/
def Eval.insertCallback {σ : Type} (entry : Callback) : Eval σ String :=
  Eval.change fun ctx =>
    let (id, callbacks) := ctx.callbacks.insert entry
    (id, { ctx with callbacks })

/-- An action under its name, from what it does with its fields. -/
def Processor.named {σ : Type} (action : String) (run : ActionFields σ → Eval σ Unit) :
    String × Processor σ :=
  (action, fun director fields => run { action, director, fields })

end Dialogue
