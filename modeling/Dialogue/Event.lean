import Dialogue.Json.Decoder
import Dialogue.Text.Blank

/-!
# Events and output

An inbound event is what one user did in one session: a text, an uploaded document, a
shared contact or the press of a button.  Output options are what accompanies an
outgoing text: rows of buttons, attachments and a parse mode.  Each type is written as
JSON by `toValue` and read back by its decoder.
-/

namespace Dialogue

/-- The identifier that a transport gives to a message. -/
abbrev MessageId := String

/-- A file that a user sent or that a message carries. -/
structure Attachment where
  kind : String
  fileId : String
  fileName : Option String := none
deriving DecidableEq, Repr

/-- A shared contact. -/
structure Contact where
  phone : String
  firstName : String := ""
  lastName : String := ""
deriving DecidableEq, Repr

/-- What a user did. -/
inductive Payload where
  | text (text : String)
  | document (attachment : Attachment) (caption : Option String)
  | contact (contact : Contact)
  | callback (data : String) (message : Option MessageId)
deriving DecidableEq, Repr

/-- One thing that a user did in a session. -/
structure Event where
  sessionId : String
  payload : Payload
deriving DecidableEq, Repr

/-- The kind of an event. -/
inductive EventKind where
  | text
  | document
  | contact
  | callback
deriving DecidableEq, Repr

/-- What a wait for input is willing to take. -/
inductive InputKind where
  | text
  | document
  | contact
  | any
deriving DecidableEq, Repr

/-- A button below a message: it presses a callback or opens a link. -/
structure Button where
  text : String
  callbackId : Option String := none
  url : Option String := none
deriving DecidableEq, Repr

/-- What accompanies an outgoing text. -/
structure OutputOptions where
  buttons : List (List Button) := []
  attachments : List Attachment := []
  parseMode : Option String := none
deriving DecidableEq, Repr

namespace EventKind

/-- The tag of the kind in the written form of an event. -/
def name : EventKind → String
  | .text => "text"
  | .document => "document"
  | .contact => "contact"
  | .callback => "callback"

/-- The kind with a given tag. -/
def ofName? : String → Option EventKind
  | "text" => some .text
  | "document" => some .document
  | "contact" => some .contact
  | "callback" => some .callback
  | _ => none

theorem ofName?_name (kind : EventKind) : ofName? kind.name = some kind := by
  cases kind <;> rfl

end EventKind

namespace InputKind

/-- The name of the kind. -/
def name : InputKind → String
  | .text => "text"
  | .document => "document"
  | .contact => "contact"
  | .any => "any"

/-- Reads a kind from a scenario: names and their aliases, in any case. -/
def parse? (raw : String) : Option InputKind :=
  match String.ofList ((Text.trimmed raw.toList).map Char.toLower) with
  | "text" => some .text
  | "document" | "file" => some .document
  | "contact" | "phone" => some .contact
  | "any" | "*" => some .any
  | _ => none

/-- Whether an event of the given kind answers a wait.  A button press never does, and a
document answers a wait for text only where attachments are allowed. -/
def accepts (kind : InputKind) (event : EventKind) (allowAttachments : Bool) : Bool :=
  match kind, event with
  | _, .callback => false
  | .any, _ => true
  | .text, .text => true
  | .text, .document => allowAttachments
  | .document, .document => true
  | .contact, .contact => true
  | _, _ => false

end InputKind

namespace Payload

/-- The kind of a payload. -/
def kind : Payload → EventKind
  | .text _ => .text
  | .document _ _ => .document
  | .contact _ => .contact
  | .callback _ _ => .callback

end Payload

namespace Attachment

/-- The written form leaves out an absent file name. -/
def toValue (a : Attachment) : Value :=
  .record ([("kind", .string a.kind), ("fileId", .string a.fileId)] ++
    match a.fileName with
    | some name => [("fileName", .string name)]
    | none => [])

/-- The form in which a scenario sees an attachment: every field is there. -/
def view (a : Attachment) : Value :=
  .record [("kind", .string a.kind), ("fileId", .string a.fileId),
    ("fileName", .ofText? a.fileName)]

/-- Reads an attachment. -/
def decoder : Decoder Attachment := fun depth d => do
  let r ← Record.open? ["kind", "fileId", "fileName"] depth d
  let kind ← r.required "kind" .text
  let fileId ← r.required "fileId" .text
  let fileName ← r.getD "fileName" none (.nullable .text)
  some { kind, fileId, fileName }

end Attachment

namespace Contact

/-- The written form of a contact, which is also what a scenario sees. -/
def toValue (c : Contact) : Value :=
  .record [("phone", .string c.phone), ("firstName", .string c.firstName),
    ("lastName", .string c.lastName)]

/-- Reads a contact; both names may be missing. -/
def decoder : Decoder Contact := fun depth d => do
  let r ← Record.open? ["phone", "firstName", "lastName"] depth d
  let phone ← r.required "phone" .text
  let firstName ← r.getD "firstName" "" .text
  let lastName ← r.getD "lastName" "" .text
  some { phone, firstName, lastName }

end Contact

namespace Payload

/-- The written form of a payload carries the tag of its kind beside its fields. -/
def toValue (p : Payload) : Value :=
  .record (("kind", .string p.kind.name) :: match p with
    | .text body => [("text", .string body)]
    | .document file caption =>
      [("attachment", file.toValue), ("caption", .ofText? caption)]
    | .contact person => [("contact", person.toValue)]
    | .callback data message => [("data", .string data), ("messageRef", .ofText? message)])

/-- Separates the tag of a payload from its fields. -/
def untag? : Document → Option (EventKind × Document)
  | .object members => do
    let tags := members.filter fun member => member.1 == some "kind"
    match tags with
    | [(_, .string (some tag))] =>
      let kind ← EventKind.ofName? tag
      some (kind, .object (members.filter fun member => member.1 != some "kind"))
    | _ => none
  | .array (.string (some tag) :: rest) => do
    let kind ← EventKind.ofName? tag
    some (kind, .array rest)
  | _ => none

/-- Reads the fields of a payload of a given kind. -/
def ofKind? (kind : EventKind) : Decoder Payload := fun depth d =>
  match kind with
  | .text => do
    let r ← Record.open? ["text"] depth d
    let body ← r.required "text" .text
    some (.text body)
  | .document => do
    let r ← Record.open? ["attachment", "caption"] depth d
    let file ← r.required "attachment" Attachment.decoder
    let caption ← r.getD "caption" none (.nullable .text)
    some (.document file caption)
  | .contact => do
    let r ← Record.open? ["contact"] depth d
    let person ← r.required "contact" Contact.decoder
    some (.contact person)
  | .callback => do
    let r ← Record.open? ["data", "messageRef"] depth d
    let data ← r.required "data" .text
    let message ← r.getD "messageRef" none (.nullable .text)
    some (.callback data message)

/-- Reads a payload. -/
def decoder : Decoder Payload := fun depth d => do
  let (kind, fields) ← untag? d
  ofKind? kind depth fields

end Payload

namespace Event

/-- The kind of an event. -/
def kind (e : Event) : EventKind := e.payload.kind

/-- The written form of an event. -/
def toValue (e : Event) : Value :=
  .record [("sessionId", .string e.sessionId), ("payload", e.payload.toValue)]

/-- Reads an event. -/
def decoder : Decoder Event := fun depth d => do
  let r ← Record.open? ["sessionId", "payload"] depth d
  let sessionId ← r.required "sessionId" .text
  let payload ← r.required "payload" Payload.decoder
  some { sessionId, payload }

/-- The event that a value describes. -/
def ofValue? (v : Value) : Option Event :=
  Event.decoder.ofValue? v

/-- The text that restarts a conversation. -/
def startCommand : String := "/start"

/-- A text event. -/
def ofText (sessionId text : String) : Event :=
  { sessionId, payload := .text text }

end Event

namespace Button

/-- The written form leaves out what is absent. -/
def toValue (b : Button) : Value :=
  .record (("text", .string b.text) ::
    ((match b.callbackId with
      | some id => [("callbackId", .string id)]
      | none => []) ++
    match b.url with
      | some url => [("url", .string url)]
      | none => []))

/-- Reads a button. -/
def decoder : Decoder Button := fun depth d => do
  let r ← Record.open? ["text", "callbackId", "url"] depth d
  let text ← r.required "text" .text
  let callbackId ← r.getD "callbackId" none (.nullable .text)
  let url ← r.getD "url" none (.nullable .text)
  some { text, callbackId, url }

end Button

namespace OutputOptions

/-- The written form leaves out an absent parse mode. -/
def toValue (o : OutputOptions) : Value :=
  .record ([("buttons", .array (o.buttons.map fun row => .array (row.map Button.toValue))),
      ("attachments", .array (o.attachments.map Attachment.toValue))] ++
    match o.parseMode with
    | some mode => [("parseMode", .string mode)]
    | none => [])

/-- Reads output options; every field may be missing. -/
def decoder : Decoder OutputOptions := fun depth d => do
  let r ← Record.open? ["buttons", "attachments", "parseMode"] depth d
  let buttons ← r.getD "buttons" [] (.list (.list Button.decoder))
  let attachments ← r.getD "attachments" [] (.list Attachment.decoder)
  let parseMode ← r.getD "parseMode" none (.nullable .text)
  some { buttons, attachments, parseMode }

/-- The options that a value describes. -/
def ofValue? (v : Value) : Option OutputOptions :=
  OutputOptions.decoder.ofValue? v

end OutputOptions
end Dialogue
