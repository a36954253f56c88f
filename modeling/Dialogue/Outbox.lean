import Dialogue.Event
import Dialogue.Failure

/-!
# Outbox

A transport that only keeps a record of what was sent, edited and deleted.  It knows
which messages still exist; editing or deleting any other message fails, and sending can
be made to fail.
-/

namespace Dialogue

/-- One thing that was done to a message. -/
inductive OutboundRecord where
  | sent (sessionId : String) (message : MessageId) (text : String) (options : OutputOptions)
  | edited (sessionId : String) (message : MessageId) (text : String) (options : OutputOptions)
  | deleted (sessionId : String) (message : MessageId)
deriving DecidableEq, Repr

/-- Records in order, and the messages that still exist. -/
structure Outbox where
  nextNumber : Nat := 0
  records : List OutboundRecord := []
  live : List MessageId := []
  failSends : Bool := false

namespace Outbox

/-- What a user reads about a message that no longer exists. -/
def gone (message : MessageId) : Failure :=
  .messageGone ("Message " ++ Failure.inQuotes message ++ " no longer exists.")

/-- Sends a message.  Messages are numbered from one. -/
def send (o : Outbox) (sessionId text : String) (options : OutputOptions) :
    Except Failure MessageId × Outbox :=
  if o.failSends then (.error .sendRejected, o)
  else
    let message := Decimal.ofInt (o.nextNumber + 1)
    (.ok message,
      { o with
        nextNumber := o.nextNumber + 1
        live := message :: o.live
        records := o.records ++ [.sent sessionId message text options] })

/-- Edits a message that exists. -/
def edit (o : Outbox) (sessionId : String) (message : MessageId) (text : String)
    (options : OutputOptions) : Except Failure Unit × Outbox :=
  if o.live.contains message then
    (.ok (), { o with records := o.records ++ [.edited sessionId message text options] })
  else (.error (gone message), o)

/-- Deletes a message that exists. -/
def delete (o : Outbox) (sessionId : String) (message : MessageId) :
    Except Failure Unit × Outbox :=
  if o.live.contains message then
    (.ok (),
      { o with
        live := o.live.filter (· != message)
        records := o.records ++ [.deleted sessionId message] })
  else (.error (gone message), o)

/-- Makes a message vanish without a record. -/
def forget (o : Outbox) (message : MessageId) : Outbox :=
  { o with live := o.live.filter (· != message) }

/-- Drops the records and nothing else. -/
def clear (o : Outbox) : Outbox := { o with records := [] }

/-- The texts of the messages on record, in order. -/
def sentTexts (o : Outbox) : List String :=
  o.records.filterMap fun record => match record with
    | .sent _ _ text _ => some text
    | _ => none

/-- The last message on record. -/
def lastSent? (o : Outbox) : Option (MessageId × String × OutputOptions) :=
  o.records.reverse.findSome? fun record => match record with
    | .sent _ message text options => some (message, text, options)
    | _ => none

end Outbox

namespace OutboundRecord

/-- The written form of a record. -/
def toValue : OutboundRecord → Value
  | .sent sessionId message text options =>
    .record [("kind", .string "sent"), ("session", .string sessionId),
      ("message", .string message), ("text", .string text), ("options", options.toValue)]
  | .edited sessionId message text options =>
    .record [("kind", .string "edited"), ("session", .string sessionId),
      ("message", .string message), ("text", .string text), ("options", options.toValue)]
  | .deleted sessionId message =>
    .record [("kind", .string "deleted"), ("session", .string sessionId),
      ("message", .string message)]

end OutboundRecord
end Dialogue
