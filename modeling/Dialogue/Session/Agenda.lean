import Dialogue.Session.Store

/-!
# The agenda

Time, the sessions, and what is to be done at some later time: end a wait for input, or
sweep away idle sessions.  An alarm sleeps until it is due.  Alarms that are due at the
same time are carried out in the order in which they went to sleep.

A timer is set for one wait of one session.  It acts only while that very session is
still the one stored under its identifier and that very wait is still pending.  A timer
whose session is locked is held back until the lock is released.

Time moves in two ways.  Between events it moves by `advance`, which carries out whatever
falls due up to the new time.  While an event is handled it moves by `pause`.  The event
is the first to go on at the new time, so what falls due at that very time is only made
ready, and is carried out when the event pauses again or has released its session.  The
same holds of alarms that the event sets: they go to sleep once the event lets them.
-/

namespace Dialogue

/-- The end of one wait. -/
structure InputTimer where
  sessionId : String
  serial : Nat
  generation : Nat
deriving DecidableEq, Repr

/-- A periodic eviction. -/
structure Sweeper where
  idle : Nanos
  every : Nanos
  every_pos : 0 < every

/-- What is to be done when an alarm is due. -/
inductive Errand where
  | endWait (timer : InputTimer)
  | sweep (sweeper : Sweeper)

/-- An errand and the time to do it. -/
structure Alarm where
  due : Nanos
  errand : Errand

/-- A wait that ended unanswered; `underLock` says whether its session was locked when
this was reported. -/
structure TimeoutNotice where
  sessionId : String
  pending : PendingInput
  underLock : Bool

/-- Time, sessions and what is to be done.  `alarms` sleep, in the order in which they
are due; `ready` are to be carried out or put to sleep as soon as the event at hand lets
them; `heldBack` wait for the lock of their session. -/
structure Agenda where
  now : Nanos := 0
  store : SessionStore := {}
  alarms : List Alarm := []
  ready : List Alarm := []
  heldBack : List InputTimer := []
  notices : List TimeoutNotice := []

namespace Alarm

/-- The alarm that follows this one: a sweep is followed by the next one. -/
def next? (alarm : Alarm) : Option Alarm :=
  match alarm.errand with
  | .endWait _ => none
  | .sweep s => some { alarm with due := alarm.due + s.every }

/-- Of an alarm and those that follow it, the last that is due by a time. -/
def latest (alarm : Alarm) (time : Nanos) : Alarm :=
  match alarm.errand with
  | .endWait _ => alarm
  | .sweep s => { alarm with due := alarm.due + (time - alarm.due) / s.every * s.every }

/-- Puts an alarm behind those that are due no later. -/
def insertInto (alarm : Alarm) : List Alarm → List Alarm
  | [] => [alarm]
  | a :: rest => if a.due ≤ alarm.due then a :: insertInto alarm rest else alarm :: a :: rest

/-- The sleeping alarms after one of them was carried out. -/
def followed (alarm : Alarm) (rest : List Alarm) : List Alarm :=
  match alarm.next? with
  | none => rest
  | some next => next.insertInto rest

/-- How much of the time until `time` alarms leave, one by one. -/
def remaining (time : Nanos) (alarms : List Alarm) : Nat :=
  alarms.foldr (fun alarm rest => time + 1 - alarm.due + rest) 0

theorem due_lt_of_next? {alarm next : Alarm} (h : alarm.next? = some next) :
    alarm.due < next.due := by
  unfold next? at h
  split at h
  · exact absurd h (by simp)
  · next s _ =>
      cases h
      exact Nat.lt_add_of_pos_right s.every_pos

theorem due_le_latest (alarm : Alarm) (time : Nanos) : alarm.due ≤ (alarm.latest time).due := by
  unfold latest
  split
  · exact Nat.le_refl _
  · exact Nat.le_add_right _ _

theorem remaining_insertInto (time : Nanos) (alarm : Alarm) (alarms : List Alarm) :
    remaining time (alarm.insertInto alarms) = time + 1 - alarm.due + remaining time alarms := by
  induction alarms with
  | nil => rfl
  | cons a rest ih =>
      unfold insertInto
      split
      · simp only [remaining, List.foldr_cons] at ih ⊢
        omega
      · rfl

/-- Carrying out an alarm that is due leaves less to do until the same time. -/
theorem remaining_followed_lt {time : Nanos} {first : Alarm} (horizon : Nanos)
    (rest : List Alarm) (h : first.due ≤ time) :
    remaining time ((first.latest horizon).followed rest) < remaining time (first :: rest) := by
  unfold followed
  split
  · exact Nat.lt_add_of_pos_left (Nat.sub_pos_of_lt (Nat.lt_succ_of_le h))
  · next next hnext =>
      have later : first.due < next.due :=
        Nat.lt_of_le_of_lt (due_le_latest first horizon) (due_lt_of_next? hnext)
      rw [remaining_insertInto]
      exact Nat.add_lt_add_right
        (Nat.sub_lt_sub_left (Nat.lt_succ_of_le h) later) (remaining time rest)

end Alarm

namespace Agenda

/-- Reports a wait that ended unanswered. -/
def notify (a : Agenda) (sessionId : String) (pending : PendingInput) (underLock : Bool) :
    Agenda :=
  { a with notices := a.notices ++ [{ sessionId, pending, underLock }] }

/-- Ends the wait that a timer was set for, if it is still there; holds the timer back
while its session is locked. -/
def fire (a : Agenda) (timer : InputTimer) : Agenda :=
  match a.store.get? timer.sessionId with
  | none => a
  | some stored =>
    if stored.session.serial != timer.serial then a
    else if stored.locked then { a with heldBack := a.heldBack ++ [timer] }
    else
      match stored.session.awaiting.expire timer.generation with
      | (none, _) => a
      | (some pending, awaiting) =>
        { a with
          store := a.store.put timer.sessionId
            { stored with session := { stored.session with awaiting } } }.notify
          timer.sessionId pending false

/-- Does the errand of an alarm. -/
def carryOut (a : Agenda) (alarm : Alarm) : Agenda :=
  match alarm.errand with
  | .endWait timer => a.fire timer
  | .sweep s => { a with store := (a.store.evictIdle alarm.due s.idle).2 }

/-- Carries an alarm out if it is due, and puts it to sleep if it is not. -/
def start (a : Agenda) (alarm : Alarm) : Agenda :=
  if alarm.due ≤ a.now then { a.carryOut alarm with alarms := alarm.followed a.alarms }
  else { a with alarms := alarm.insertInto a.alarms }

/-- Starts everything that is ready, in order. -/
def settle (a : Agenda) : Agenda :=
  a.ready.foldl start { a with ready := [] }

/-- The last moment until `time` before any of some other alarms is due.  Sweeps of one
sweeper up to that moment evict no more than the last of them. -/
def horizon (time : Nanos) : List Alarm → Nanos
  | [] => time
  | next :: _ => min time (next.due - 1)

/-- Moves time on from one due alarm to the next, and carries each of them out. -/
def runUntil (a : Agenda) (time : Nanos) : Agenda :=
  match h : a.alarms with
  | [] => a
  | first :: rest =>
    if due : first.due ≤ time then
      let alarm := first.latest (horizon time rest)
      have lessToDo :
          Alarm.remaining time (alarm.followed rest) < Alarm.remaining time a.alarms := by
        rw [h]
        exact Alarm.remaining_followed_lt _ rest due
      runUntil
        { ({ a with now := max a.now alarm.due } : Agenda).carryOut alarm with
          alarms := alarm.followed rest } time
    else a
termination_by Alarm.remaining time a.alarms

/-- Moves time on and carries out what is due by then. -/
def advance (a : Agenda) (time : Nanos) : Agenda :=
  let a := a.settle.runUntil time
  { a with now := max a.now time }

/-- Moves time on by a span. -/
def pass (a : Agenda) (span : Nanos) : Agenda := a.advance (a.now + span)

/-- Moves time on by a span while an event is handled.  What is due at the end of the
span is made ready. -/
def pause (a : Agenda) (span : Nanos) : Agenda :=
  if span = 0 then a
  else
    let time := a.now + span
    let a := a.settle.runUntil (time - 1)
    { a with
      now := time
      ready := a.alarms.takeWhile fun alarm => alarm.due ≤ time
      alarms := a.alarms.dropWhile fun alarm => alarm.due ≤ time }

/-- Sets a timer for a wait of the session whose event is handled.  Timers keep whole
milliseconds. -/
def schedule (a : Agenda) (timer : InputTimer) (timeout : Nanos) : Agenda :=
  { a with
    ready := a.ready ++
      [{ due := Nanos.wholeMillis (a.now + timeout.withinReach), errand := .endWait timer }] }

/-- Starts a periodic eviction; its first sweep is one period from now. -/
def startSweeper (a : Agenda) (idle every : Nanos) : Agenda :=
  let every := every.withinReach
  if every_pos : 0 < every then
    a.start { due := a.now + every, errand := .sweep { idle, every, every_pos } }
  else a

/-- Unlocks a session. -/
def unlock (a : Agenda) (sessionId : String) : Agenda :=
  { a with store := a.store.modify sessionId fun stored => { stored with locked := false } }

/-- Releases the session of an event that was handled, and carries out what waited for
that.  The lock passes straight to the timers that were held back, so that what is ready
at that moment still finds the session locked. -/
def release (a : Agenda) (sessionId : String) : Agenda :=
  if a.heldBack.isEmpty then (a.unlock sessionId).settle
  else
    let a := a.settle.unlock sessionId
    a.heldBack.foldl fire { a with heldBack := [] }

end Agenda
end Dialogue
