import Dialogue.Actions.Fields

/-!
# Messages

`EmitOutput` sends a message, `EditOutput` and `DeleteOutput` act on one that was sent.
Each button of a message gets a callback of its own.  Acting on a message that is gone
only makes the session forget it.
-/

namespace Dialogue
namespace ActionFields

variable {σ : Type}

/-- A button that opens a link, or runs a graph when it is pressed. -/
def button (f : ActionFields σ) (description : Value) : Eval σ Button :=
  match description with
  | .object fields => do
    let text := ((Keyed.get? fields "text").map Value.toText).getD ""
    match (Keyed.get? fields "url").filter fun url => !url.isNull with
    | some url => return { text, url := some url.toText }
    | none => do
      let sessionId ← Eval.ask fun ctx => ctx.session.id
      let id ← Eval.insertCallback
        { sessionId, graph := (Keyed.get? fields "onClick").getD .null,
          params := ((Keyed.get? fields "params").bind Value.fields?).getD [] }
      return { text, callbackId := some id }
  | _ => f.invalid "buttons" "rows of button objects"

/-- A row of buttons; one button alone is a row too. -/
def buttonRow (f : ActionFields σ) (row : Value) : Eval σ (List Button) :=
  match row with
  | .array items => items.mapM f.button
  | .object _ => do
    let button ← f.button row
    return [button]
  | _ => f.invalid "buttons" "rows of button objects"

/-- The rows of buttons; empty rows are left out. -/
def buttons (f : ActionFields σ) : Eval σ (List (List Button)) := do
  match ← f.value "buttons" with
  | .null => return []
  | .array rows => do
    let rows ← rows.mapM f.buttonRow
    return rows.filter fun row => !row.isEmpty
  | _ => f.invalid "buttons" "a list of rows"

/-- The attachments of a message. -/
def attachments (f : ActionFields σ) : Eval σ (List Attachment) := do
  match ← f.value "attachments" with
  | .null => return []
  | .array items =>
    items.mapM fun item =>
      match Attachment.decoder.ofValue? item with
      | some attachment => return attachment
      | none => f.invalid "attachments" "\x7bkind, fileId, fileName?\x7d objects"
  | _ => f.invalid "attachments" "a list"

/-- What accompanies the text of a message. -/
def outputOptions (f : ActionFields σ) : Eval σ OutputOptions := do
  let parseMode ← f.text? "parseMode"
  let buttons ← f.buttons
  let attachments ← f.attachments
  return { buttons, attachments, parseMode }

/-- The message that an action is about: by its identifier, by the name it was saved
under, or else the last one. -/
def target? (f : ActionFields σ) : Eval σ (Option MessageId) := do
  match ← f.text? "messageId" with
  | some id => return some id
  | none =>
    match ← f.text? "message" with
    | some name => Eval.ask fun ctx => ctx.session.messages.get? name
    | none => Eval.ask fun ctx => ctx.session.lastMessage

end ActionFields

namespace Output

variable {σ : Type}

/-- Sends a message and remembers it. -/
def emit (f : ActionFields σ) : Eval σ Unit := do
  let text ← f.text? "text"
  let options ← f.outputOptions
  let name ← f.text? "saveAs"
  let message ← f.director.send (text.getD "") options
  Eval.updateSession fun session => session.rememberMessage name message
  let onSuccess := f.graph "onSuccess"
  if onSuccess.isNull then return ()
  else f.director.runGraphWithLocals onSuccess [("messageId", .string message)]

/-- Edits a message. -/
def edit (f : ActionFields σ) : Eval σ Unit := do
  match ← f.target? with
  | none => return ()
  | some message => do
    let text ← f.text? "text"
    let options ← f.outputOptions
    (f.director.edit message (text.getD "") options).recover Failure.isGone fun _ =>
      Eval.updateSession fun session => session.forgetMessage message

/-- Deletes a message. -/
def delete (f : ActionFields σ) : Eval σ Unit := do
  match ← f.target? with
  | none => return ()
  | some message => f.director.delete message

/-- The actions of this module. -/
def actions : List (String × Processor σ) :=
  [Processor.named "EmitOutput" emit, Processor.named "EditOutput" edit,
    Processor.named "DeleteOutput" delete]

end Output
end Dialogue
