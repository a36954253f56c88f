import Dialogue.Session.Awaiting
import Dialogue.Session.Navigation
import Dialogue.Session.Storage
import Dialogue.Value.Path

/-!
# Sessions

A session is everything that lasts about one user's conversation.  `serial` tells two
sessions apart that lived under one identifier at different times.
-/

namespace Dialogue

/-- One user's conversation. -/
structure Session where
  id : String
  serial : Nat := 0
  data : Fields := []
  navigation : Navigation := {}
  awaiting : Awaiting := {}
  storage : SessionStorage := {}
  lastMessage : Option MessageId := none
  messages : Keyed MessageId := []
  lastActivity : Nanos := 0

namespace Session

/-- Marks the session as active. -/
def touch (s : Session) (now : Nanos) : Session := { s with lastActivity := now }

/-- The data at a dotted path. -/
def getData? (s : Session) (path : String) : Option Value :=
  Fields.at? s.data (Path.parse path)

/-- Writes data at a dotted path. -/
def setData (s : Session) (path : String) (value : Value) : Except Path.Obstacle Session :=
  (Fields.write s.data (Path.parse path) value).map fun data => { s with data }

/-- Removes the data at a dotted path. -/
def removeData (s : Session) (path : String) : Option Value × Session :=
  let (removed, data) := Fields.remove s.data (Path.parse path)
  (removed, { s with data })

/-- Notes an emitted message, under a name if it has one. -/
def rememberMessage (s : Session) (name : Option String) (message : MessageId) : Session :=
  { s with
    messages := match name with
      | some name => s.messages.put name message
      | none => s.messages
    lastMessage := some message }

/-- Drops every reference to a message. -/
def forgetMessage (s : Session) (message : MessageId) : Session :=
  { s with
    messages := s.messages.filter fun entry => entry.2 != message
    lastMessage := if s.lastMessage = some message then none else s.lastMessage }

end Session
end Dialogue
