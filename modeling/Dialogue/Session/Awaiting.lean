import Dialogue.Clock.Nanos
import Dialogue.Event

/-!
# Waiting for input

A session waits for at most one input.  Every wait gets a generation when it is armed,
and generations of one session only grow, so a timer that was set for one wait can tell
whether that wait is still the pending one.
-/

namespace Dialogue

/-- What a wait asks for and what follows its answer or its cancellation. -/
structure InputRequest where
  key : String
  inputKind : InputKind := .text
  onDone : Value := .null
  onCancel : Value := .null
  allowAttachments : Bool := false
  clearAfter : Bool := false
  timeout : Option Nanos := none

/-- An armed wait. -/
structure PendingInput where
  request : InputRequest
  deadline : Option Nanos
  generation : Nat

/-- What became of an event that was offered to a wait. -/
inductive InputMatch where
  | idle
  | mismatch
  | matched (pending : PendingInput)

/-- The wait of a session, if it has one, and the number of waits armed so far. -/
structure Awaiting where
  pending : Option PendingInput := none
  generation : Nat := 0

namespace PendingInput

/-- The name under which the answer is stored. -/
def key (p : PendingInput) : String := p.request.key

/-- Whether the deadline has been reached. -/
def isDue (p : PendingInput) (now : Nanos) : Bool :=
  match p.deadline with
  | some deadline => deadline ≤ now
  | none => false

end PendingInput

namespace Awaiting

/-- Whether a wait is pending. -/
def isWaiting (a : Awaiting) : Bool := a.pending.isSome

/-- Arms a wait.  The answer is its generation and the wait that it replaces. -/
def arm (a : Awaiting) (request : InputRequest) (now : Nanos) :
    (Nat × Option PendingInput) × Awaiting :=
  let generation := a.generation + 1
  let pending : PendingInput :=
    { request, generation, deadline := request.timeout.map (now + ·) }
  ((generation, a.pending), { pending := some pending, generation })

/-- Takes the wait away. -/
def take (a : Awaiting) : Awaiting := { a with pending := none }

/-- Offers an event of some kind.  A wait that accepts it is over. -/
def offer (a : Awaiting) (kind : EventKind) : InputMatch × Awaiting :=
  match a.pending with
  | none => (.idle, a)
  | some p =>
    if p.request.inputKind.accepts kind p.request.allowAttachments then (.matched p, a.take)
    else (.mismatch, a)

/-- Ends the wait, whatever it is. -/
def cancel (a : Awaiting) : Option PendingInput × Awaiting :=
  (a.pending, a.take)

/-- Ends the wait if it satisfies a condition. -/
def endIf (a : Awaiting) (condition : PendingInput → Bool) : Option PendingInput × Awaiting :=
  match a.pending with
  | some p => if condition p then (some p, a.take) else (none, a)
  | none => (none, a)

/-- Ends the wait of one generation. -/
def expire (a : Awaiting) (generation : Nat) : Option PendingInput × Awaiting :=
  a.endIf fun p => p.generation == generation

/-- Ends a wait whose deadline has been reached. -/
def expireIfDue (a : Awaiting) (now : Nanos) : Option PendingInput × Awaiting :=
  a.endIf fun p => p.isDue now

end Awaiting
end Dialogue
