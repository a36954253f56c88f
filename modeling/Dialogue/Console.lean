import Dialogue.Engine.Standard

/-!
# The console

A transport that prints.  Messages are numbered, and the buttons of a message that run
something are numbered within it; a session can press those of its latest keyboard, as
long as the message with that keyboard was not deleted.  Lines that a user types are
commands that begin with a slash, or texts.
-/

namespace Dialogue

/-- The buttons of a message that can be pressed, in the order of their numbers. -/
structure Keyboard where
  message : MessageId
  callbacks : List String
deriving DecidableEq, Repr

/-- What the console remembers, and the lines that were printed and not taken yet. -/
structure Console where
  nextNumber : Nat := 0
  live : List MessageId := []
  keyboards : Keyed Keyboard := []
  lines : List String := []

/-- What a typed line means. -/
inductive ConsoleInput where
  | event (event : Event)
  | help
  | quit
  | skip
  | invalid (reason : String)
deriving DecidableEq, Repr

namespace Console

/-- Prints lines. -/
def print (c : Console) (lines : List String) : Console :=
  { c with lines := c.lines ++ lines }

/-- Prints something that is no message. -/
def notice (c : Console) (text : String) : Console := c.print ["! " ++ text]

/-- The lines printed since they were last taken. -/
def take (c : Console) : List String × Console :=
  (c.lines, { c with lines := [] })

/-- The line of a button that cannot be pressed; `none` for one that can. -/
def plainLine? (button : Button) : Option String :=
  match button.url, button.callbackId with
  | some url, _ => some ("    (" ++ button.text ++ ") " ++ url)
  | none, some _ => none
  | none, none => some ("    (" ++ button.text ++ ")")

/-- The lines of buttons, numbered on from `count`. -/
def buttonLines (count : Nat) : List Button → List String
  | [] => []
  | button :: rest =>
    match plainLine? button with
    | some line => line :: buttonLines count rest
    | none =>
      ("    [" ++ Decimal.ofInt (count + 1) ++ "] " ++ button.text) :: buttonLines (count + 1) rest

/-- The callback of a button that can be pressed. -/
def pressable? (button : Button) : Option String :=
  if button.url.isNone then button.callbackId else none

/-- The line of an attachment. -/
def attachmentLine (a : Attachment) : String :=
  "    <" ++ a.kind ++ " " ++ a.fileName.getD a.fileId ++ ">"

/-- Prints a message and keeps its keyboard, if it has one. -/
def present (c : Console) (sessionId : String) (message : MessageId) (header : String)
    (options : OutputOptions) : Console :=
  let buttons := options.buttons.flatten
  let callbacks := buttons.filterMap pressable?
  let keyboards :=
    if callbacks.isEmpty then c.keyboards else c.keyboards.put sessionId { message, callbacks }
  { c with keyboards }.print
    (header :: buttonLines 0 buttons ++ options.attachments.map attachmentLine)

/-- What a user reads about a message that no longer exists. -/
def gone (message : MessageId) : Failure :=
  .messageGone ("Message #" ++ message ++ " is gone.")

/-- Sends a message.  Messages are numbered from one. -/
def send (c : Console) (sessionId text : String) (options : OutputOptions) :
    Except Failure MessageId × Console :=
  let message := Decimal.ofInt (c.nextNumber + 1)
  (.ok message,
    { c with nextNumber := c.nextNumber + 1, live := message :: c.live }.present sessionId message
      ("#" ++ message ++ " " ++ text) options)

/-- Edits a message that exists. -/
def edit (c : Console) (sessionId : String) (message : MessageId) (text : String)
    (options : OutputOptions) : Except Failure Unit × Console :=
  if c.live.contains message then
    (.ok (), c.present sessionId message ("#" ++ message ++ " (edited) " ++ text) options)
  else (.error (gone message), c)

/-- The keyboards once a message is deleted: the session loses its own if it belongs to
that message. -/
def keyboardsWithout (c : Console) (sessionId : String) (message : MessageId) : Keyed Keyboard :=
  match c.keyboards.get? sessionId with
  | some keyboard =>
    if keyboard.message = message then c.keyboards.drop sessionId else c.keyboards
  | none => c.keyboards

/-- Deletes a message that exists. -/
def delete (c : Console) (sessionId : String) (message : MessageId) :
    Except Failure Unit × Console :=
  if c.live.contains message then
    (.ok (),
      { c with
        live := c.live.filter (· != message)
        keyboards := c.keyboardsWithout sessionId message }.print
        ["#" ++ message ++ " (deleted)"])
  else (.error (gone message), c)

/-- The host of a console without a network. -/
def host : Host Console where
  send := send
  edit := edit
  delete := delete
  call c request := (request.offline, c)

/-- The button with a number, from 1, on the latest keyboard of a session. -/
def button? (c : Console) (sessionId : String) (number : Nat) : Option (MessageId × String) := do
  let keyboard ← c.keyboards.get? sessionId
  if number = 0 then none
  else
    let id ← keyboard.callbacks[number - 1]?
    some (keyboard.message, id)

/-- What `/help` prints. -/
def helpLines : List String :=
  ["/press N               press button N of the latest keyboard",
    "/contact PHONE [NAME]  share a contact",
    "/doc NAME [CAPTION]    upload a document",
    "/quit                  leave",
    "anything else          send as text"]

/-- The press of a numbered button. -/
def press (c : Console) (sessionId : String) (words : List String) : ConsoleInput :=
  match words.head?.bind (Decimal.count? Decimal.wordLimit) with
  | none => .invalid "usage: /press N"
  | some number =>
    match c.button? sessionId number with
    | some (message, id) => .event { sessionId, payload := .callback id (some message) }
    | none => .invalid ("no button " ++ Decimal.ofInt number)

/-- A contact: its phone number, first name, and the rest as last name. -/
def contact (sessionId : String) : List String → ConsoleInput
  | [] => .invalid "usage: /contact PHONE [NAME]"
  | phone :: names =>
    .event
      { sessionId,
        payload := .contact
          { phone, firstName := names.head?.getD "",
            lastName := String.intercalate " " names.tail } }

/-- A document: its name, and the rest as caption. -/
def document (sessionId : String) : List String → ConsoleInput
  | [] => .invalid "usage: /doc NAME [CAPTION]"
  | name :: words =>
    .event
      { sessionId,
        payload := .document
          { kind := "document", fileId := "console:" ++ name, fileName := some name }
          (if words.isEmpty then none else some (String.intercalate " " words)) }

/-- What a typed line means in a session. -/
def read (c : Console) (sessionId line : String) : ConsoleInput :=
  match Text.words line with
  | [] => .skip
  | "/quit" :: _ => .quit
  | "/help" :: _ => .help
  | "/press" :: words => c.press sessionId words
  | "/contact" :: words => contact sessionId words
  | "/doc" :: words => document sessionId words
  | _ => .event (.ofText sessionId (Text.trim line))

end Console

/-- A conversation on the console. -/
structure Chat where
  engine : Engine Console
  house : House Console
  sessionId : String
  finished : Bool := false

namespace Chat

/-- Prints what an event came to, if it failed. -/
def report (chat : Chat) (result : Except Stop Unit × House Console) : Chat :=
  let house := result.2
  match result.1 with
  | .error (.failed failure) =>
    { chat with house := { house with outside := house.outside.notice failure.line } }
  | _ => { chat with house }

/-- Prints lines. -/
def print (chat : Chat) (lines : List String) : Chat :=
  { chat with house := { chat.house with outside := chat.house.outside.print lines } }

/-- Begins the conversation: a greeting, then the start of the session. -/
def begin (engine : Engine Console) (bound : Nat) (sessionId : String) : Chat :=
  let chat : Chat := { engine, house := engine.watchIdle (engine.newHouse {}), sessionId }
  let chat := chat.print ["type /help for commands"]
  chat.report (engine.start bound chat.house sessionId)

/-- Lets time pass. -/
def advance (chat : Chat) (now : Nanos) : Chat :=
  { chat with house := { chat.house with agenda := chat.house.agenda.advance now } }

/-- Takes a typed line. -/
def feed (chat : Chat) (bound : Nat) (line : String) : Chat :=
  match chat.house.outside.read chat.sessionId line with
  | .quit => { chat with finished := true }
  | .skip => chat
  | .help => chat.print Console.helpLines
  | .invalid reason =>
    { chat with house := { chat.house with outside := chat.house.outside.notice reason } }
  | .event event => chat.report (chat.engine.handle bound chat.house event)

/-- The time that passes at least before the next line is there. -/
def lineGap : Nanos := 1000

/-- Lets the time pass until the next line is there. -/
def pass (chat : Chat) : Chat := chat.advance (chat.house.agenda.now + lineGap)

/-- Takes typed lines until one of them ends the conversation. -/
def feedAll (chat : Chat) (bound : Nat) : List String → Chat
  | [] => chat
  | line :: rest =>
    if chat.finished then chat else (chat.pass.feed bound line).feedAll bound rest

/-- The lines printed since they were last taken. -/
def take (chat : Chat) : List String × Chat :=
  let (lines, outside) := chat.house.outside.take
  (lines, { chat with house := { chat.house with outside } })

end Chat
end Dialogue
