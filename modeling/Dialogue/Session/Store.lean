import Dialogue.Session.Basic

/-!
# The store of sessions

Live sessions under their identifiers.  A session is locked while an event of its user
is being handled.  Idle eviction drops the sessions that are unlocked and have not been
active for a given span.
-/

namespace Dialogue

/-- A stored session and its lock. -/
structure StoredSession where
  session : Session
  locked : Bool := false

/-- Live sessions, and the serial number of the next one. -/
structure SessionStore where
  sessions : Keyed StoredSession := []
  nextSerial : Nat := 0

namespace SessionStore

/-- The session under an identifier. -/
def get? (s : SessionStore) (id : String) : Option StoredSession :=
  s.sessions.get? id

/-- The session under an identifier, created now if there is none; the flag says so. -/
def getOrCreate (s : SessionStore) (id : String) (now : Nanos) :
    (StoredSession × Bool) × SessionStore :=
  match s.get? id with
  | some stored => ((stored, false), s)
  | none =>
    let stored : StoredSession :=
      { session := { id, serial := s.nextSerial, lastActivity := now } }
    ((stored, true),
      { sessions := s.sessions.put id stored, nextSerial := s.nextSerial + 1 })

/-- Replaces a session and its lock. -/
def put (s : SessionStore) (id : String) (stored : StoredSession) : SessionStore :=
  { s with sessions := s.sessions.put id stored }

/-- Changes the session under an identifier, if there is one. -/
def modify (s : SessionStore) (id : String) (f : StoredSession → StoredSession) :
    SessionStore :=
  match s.get? id with
  | some stored => s.put id (f stored)
  | none => s

/-- Removes a session. -/
def remove (s : SessionStore) (id : String) : SessionStore :=
  { s with sessions := s.sessions.drop id }

/-- The identifiers, in order. -/
def ids (s : SessionStore) : List String := s.sessions.keys

/-- Whether a session may be evicted. -/
def isIdle (stored : StoredSession) (now idle : Nanos) : Bool :=
  !stored.locked && stored.session.lastActivity + idle ≤ now

/-- Drops the sessions that are unlocked and were last active at least `idle` ago.  The
answer names them, in order. -/
def evictIdle (s : SessionStore) (now idle : Nanos) : List String × SessionStore :=
  (((s.sessions.filter fun entry => isIdle entry.2 now idle).map Prod.fst),
    { s with sessions := s.sessions.filter fun entry => !isIdle entry.2 now idle })

end SessionStore
end Dialogue
