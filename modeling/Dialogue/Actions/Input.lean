import Dialogue.Actions.Output

/-!
# Asking for input

`RequestInput` makes the session wait for an answer and may show a prompt;
`CancelAwaitingInput` ends the wait.  A new wait replaces the one before it, whose graphs
then never run.
-/

namespace Dialogue
namespace Input

variable {σ : Type}

/-- The kind of input that a wait takes; text where none is named. -/
def inputKind (f : ActionFields σ) : Eval σ InputKind := do
  match ← f.text? "inputType" with
  | none => return .text
  | some raw =>
    match InputKind.parse? raw with
    | some kind => return kind
    | none => Eval.fail (.unknownInputType raw)

/-- The text of the prompt, if there is to be one. -/
def prompt? (f : ActionFields σ) : Eval σ (Option String) := do
  match ← f.text? "text" with
  | some text => return some text
  | none => f.text? "hint"

/-- Makes the session wait, and sets a timer if the wait is limited. -/
def arm (request : InputRequest) : Eval σ Unit :=
  Eval.update fun ctx =>
    let ((generation, _), awaiting) := ctx.session.awaiting.arm request ctx.agenda.now
    let agenda := match request.timeout with
      | some timeout =>
        ctx.agenda.schedule
          { sessionId := ctx.session.id, serial := ctx.session.serial, generation } timeout
      | none => ctx.agenda
    { ctx with session := { ctx.session with awaiting }, agenda }

/-- The graph behind a button that ends the wait. -/
def cancelGraph : Value := .object [("action", .string "CancelAwaitingInput")]

/-- The row with the button that ends the wait. -/
def cancelRow (text : String) : Eval σ (List Button) := do
  let sessionId ← Eval.ask fun ctx => ctx.session.id
  let id ← Eval.insertCallback { sessionId, graph := cancelGraph, params := [] }
  return [{ text, callbackId := some id }]

/-- Shows the prompt. -/
def showPrompt (f : ActionFields σ) (text : String) (cancelText : Option String) :
    Eval σ Unit := do
  let options ← f.outputOptions
  let options ← match cancelText with
    | some text => do
      let row ← cancelRow text
      pure { options with buttons := options.buttons ++ [row] }
    | none => pure options
  let message ← f.director.send text options
  Eval.updateSession fun session => session.rememberMessage none message

/-- Waits for an answer. -/
def request (f : ActionFields σ) : Eval σ Unit := do
  let key ← f.requiredText "key"
  let inputKind ← inputKind f
  let prompt ← prompt? f
  let cancelText ← f.text? "cancelText"
  let allowAttachments ← f.flag "allowAttachments" false
  let clearAfter ← f.flag "clearAfter" false
  let timeout ← f.seconds? "timeout"
  arm { key, inputKind, onDone := f.graph "onDone", onCancel := f.graph "onCancel",
        allowAttachments, clearAfter, timeout }
  match prompt with
  | none => return ()
  | some text => showPrompt f text cancelText

/-- Ends the wait and runs its cancel graph. -/
def cancel (f : ActionFields σ) : Eval σ Unit := do
  let pending? ← Eval.changeSession fun session =>
    let (pending?, awaiting) := session.awaiting.cancel
    (pending?, { session with awaiting })
  match pending? with
  | none => return ()
  | some pending => f.director.runGraph pending.request.onCancel

/-- The actions of this module. -/
def actions : List (String × Processor σ) :=
  [Processor.named "RequestInput" request, Processor.named "CancelAwaitingInput" cancel]

end Input
end Dialogue
