import Dialogue.Calendar.Moment
import Dialogue.Engine.Dispatch

/-!
# Routing

An inbound event is handled in a context of its own, with its session locked.  The press
of a button runs the graph of its callback.  Any other event is first offered to the
session's wait for input; then a text may be a command; and the first event of a session
runs the start actions.  What is left is ignored.  The text `/start` always restarts.
-/

namespace Dialogue

/-- Everything that outlives the handling of one event. -/
structure House (σ : Type) where
  agenda : Agenda := {}
  callbacks : CallbackTable
  outside : σ

namespace Payload

/-- The value that a wait stores.  A document is known by its caption, its file name or
its file identifier, whichever is there first. -/
def captured : Payload → Value
  | .text body => .string body
  | .document file caption =>
    .string (((caption.filter fun text => !text.isEmpty).or file.fileName).getD file.fileId)
  | .contact person => person.toValue
  | .callback data _ => .string data

/-- The document of a payload. -/
def attachment? : Payload → Option Attachment
  | .document file _ => some file
  | _ => none

/-- The text of a payload, trimmed: what may be a command. -/
def command? : Payload → Option String
  | .text body => some (Text.trim body)
  | _ => none

end Payload

namespace Engine

variable {σ : Type}

/-- The environment of a context. -/
def environment (e : Engine σ) (now : Nanos) (sessionId : String) : Fields :=
  let millis := e.wallClock now
  let moment := Calendar.Moment.ofNanos (millis * 1000000)
  Keyed.ofEntries [("timestamp", .ofInt millis), ("version", .string e.settings.version),
    ("date", .string (String.ofList moment.date.text)),
    ("time", .string (String.ofList moment.timeText)),
    ("sessionId", .string sessionId)]

/-- Takes a session out of the store, creating it if need be, and locks it.  The flag
says whether it was created. -/
def checkOut (e : Engine σ) (house : House σ) (sessionId : String) : Context σ × Bool :=
  let ((stored, created), store) := house.agenda.store.getOrCreate sessionId house.agenda.now
  let agenda :=
    { house.agenda with store := store.put sessionId { stored with locked := true } }
  ({ session := stored.session, env := e.environment house.agenda.now sessionId, agenda,
     callbacks := house.callbacks, outside := house.outside }, created)

/-- Puts the session back and releases its lock. -/
def checkIn (ctx : Context σ) : House σ where
  agenda :=
    { ctx.agenda with
      store := ctx.agenda.store.put ctx.session.id
        { session := ctx.session, locked := true } }.release ctx.session.id
  callbacks := ctx.callbacks
  outside := ctx.outside

/-- Marks the session of a context as active. -/
def touch (ctx : Context σ) : Context σ :=
  { ctx with session := ctx.session.touch ctx.agenda.now }

/-- Ends a wait whose deadline has been reached, and reports it. -/
def endOverdue (ctx : Context σ) : Context σ :=
  match ctx.session.awaiting.expireIfDue ctx.agenda.now with
  | (none, _) => ctx
  | (some pending, awaiting) =>
    { ctx with
      session := { ctx.session with awaiting }
      agenda := ctx.agenda.notify ctx.session.id pending true }

/-- Runs the graph of a callback, if the session owns it. -/
def routeCallback (e : Engine σ) (bound : Nat) (data : String) (message : Option MessageId) :
    Eval σ Unit := do
  let found ← Eval.ask fun ctx => ctx.callbacks.get? data
  let id ← Eval.ask fun ctx => ctx.session.id
  match found with
  | none => return ()
  | some entry =>
    if entry.sessionId != id then return ()
    else
      let locals : Fields := match message with
        | some message => [("messageId", .string message)]
        | none => []
      Eval.withParams entry.params (Eval.withLocals locals (e.runGraph bound entry.graph))

/-- Writes a captured value into the session's data. -/
def storeInput (key : String) (value : Value) : Eval σ Unit :=
  Eval.saveData key value (.unsavedInput key)

/-- The name under which the attachments of an answer are stored. -/
def attachmentsKey (key : String) : String := key ++ "_attachments"

/-- Stores the answer to a wait and runs the graph that follows it. -/
def completeInput (e : Engine σ) (bound : Nat) (pending : PendingInput) (payload : Payload) :
    Eval σ Unit := do
  let request := pending.request
  let value := payload.captured
  storeInput request.key value
  match payload.attachment? with
  | some file =>
    if request.allowAttachments then
      storeInput (attachmentsKey request.key) (.array [file.view])
  | none => pure ()
  (Eval.withLocals [("value", value)] (e.runGraph bound request.onDone)).thenAlways
    fun outcome => do
      if request.clearAfter then
        Eval.updateSession fun session => (session.removeData request.key).2
        Eval.updateSession fun session => (session.removeData (attachmentsKey request.key)).2
      Eval.ofOutcome outcome

/-- Offers an event to the session's wait.  The answer is whether the wait took it. -/
def captureInput (e : Engine σ) (bound : Nat) (payload : Payload) : Eval σ Bool := do
  let outcome ← Eval.changeSession fun session =>
    let (outcome, awaiting) := session.awaiting.offer payload.kind
    (outcome, { session with awaiting })
  match outcome with
  | .matched pending => do
    e.completeInput bound pending payload
    return true
  | _ => return false

/-- Decides what an event does. -/
def route (e : Engine σ) (bound : Nat) (payload : Payload) (created : Bool) : Eval σ Unit :=
  match payload with
  | .callback data message => e.routeCallback bound data message
  | _ =>
    if payload.command? = some Event.startCommand then do
      Eval.updateSession fun session => { session with awaiting := session.awaiting.cancel.2 }
      e.restart bound
    else do
      let taken ← e.captureInput bound payload
      if taken then return ()
      else
        match payload.command?.bind e.scenario.commandGraph? with
        | some graph => e.runGraph bound graph
        | none => if created then e.restart bound else return ()

/-- Handles an event.  The outcome is what routing it came to; the house is left in
order whatever it was. -/
def handle (e : Engine σ) (bound : Nat) (house : House σ) (event : Event) :
    Except Stop Unit × House σ :=
  let (ctx, created) := e.checkOut house event.sessionId
  let (outcome, ctx) := (e.route bound event.payload created).on (endOverdue (touch ctx))
  (outcome, checkIn (touch ctx))

/-- Starts a session: the same as the text `/start`. -/
def start (e : Engine σ) (bound : Nat) (house : House σ) (sessionId : String) :
    Except Stop Unit × House σ :=
  e.handle bound house (.ofText sessionId Event.startCommand)

/-- Starts the eviction of idle sessions. -/
def watchIdle (e : Engine σ) (house : House σ) : House σ :=
  { house with
    agenda := house.agenda.startSweeper e.settings.idleTimeout e.settings.sweepInterval }

/-- The house of an engine before any event. -/
def newHouse (e : Engine σ) (outside : σ) : House σ :=
  { callbacks := .empty e.settings.callbackCapacity, outside }

end Engine
end Dialogue
