import Mathlib
import Dialogue.Session.Store

/-!
# The waiting room

This module is an account of waits that is kept apart from everything else a run does.  A
session takes part in it as a waiter: which one it is of the sessions that lived under its
identifier, and its wait.  Waiters join and leave.  While an event of a session is handled,
the session may arm waits, and a wait of it may be settled: answered, cancelled or replaced.
At all other times a wait can only end by time, which is reported.  Every move says which
waits it armed and which it ended, and how.

`WaitingRoom.Accounted` relates a room to the list of all these events.  It holds of an empty
room and is kept by every move (`Accounted.moves`), so in any course of events

* no two waits have the same name (session, serial number, generation),
* a wait that is pending was armed and has not ended,
* a wait ends at most once, and only after it was armed,
* the reports are exactly the waits that timed out, in order.
-/

namespace Dialogue

/-- A session as far as its waits are concerned. -/
structure Waiter where
  serial : Nat
  awaiting : Awaiting

/-- A wait, and which session armed it. -/
structure Wait where
  sessionId : String
  serial : Nat
  pending : PendingInput

/-- What tells a wait apart from all others. -/
def Wait.name (w : Wait) : String × Nat × Nat := (w.sessionId, w.serial, w.pending.generation)

/-- How a wait ends. -/
inductive Ending where
  /-- Answered, cancelled or replaced. -/
  | settled
  /-- Ended by its timer, or found overdue. -/
  | timedOut
deriving DecidableEq, Repr

/-- What happens to a wait. -/
inductive WaitEvent where
  | armed (wait : Wait)
  | ended (wait : Wait) (how : Ending)

namespace WaitEvent

/-- The wait that an event armed. -/
def armed? : WaitEvent → Option Wait
  | armed wait => some wait
  | ended _ _ => none

/-- The wait that an event ended. -/
def ended? : WaitEvent → Option Wait
  | armed _ => none
  | ended wait _ => some wait

/-- What an event has to report: a wait that timed out, under the identifier of its session. -/
def report? : WaitEvent → Option (String × PendingInput)
  | ended wait .timedOut => some (wait.sessionId, wait.pending)
  | _ => none

/-- The waits that were armed. -/
def arms (events : List WaitEvent) : List Wait := events.filterMap armed?

/-- The waits that ended. -/
def ends (events : List WaitEvent) : List Wait := events.filterMap ended?

/-- What is to be reported. -/
def reports (events : List WaitEvent) : List (String × PendingInput) := events.filterMap report?

variable (past present : List WaitEvent) (wait : Wait) (how : Ending)

@[simp] theorem arms_append : arms (past ++ present) = arms past ++ arms present :=
  List.filterMap_append

@[simp] theorem ends_append : ends (past ++ present) = ends past ++ ends present :=
  List.filterMap_append

@[simp] theorem reports_append : reports (past ++ present) = reports past ++ reports present :=
  List.filterMap_append

@[simp] theorem arms_armed : arms [armed wait] = [wait] := rfl

@[simp] theorem ends_armed : ends [armed wait] = [] := rfl

@[simp] theorem reports_armed : reports [armed wait] = [] := rfl

@[simp] theorem arms_ended : arms [ended wait how] = [] := rfl

@[simp] theorem ends_ended : ends [ended wait how] = [wait] := rfl

end WaitEvent

open WaitEvent

/-- All waiters, the serial number of the next one, and the waits reported as timed out. -/
@[ext]
structure WaitingRoom where
  waiter? : String → Option Waiter
  nextSerial : Nat
  reports : List (String × PendingInput)

namespace WaitingRoom

/-- The room with another waiter, or none, under an identifier. -/
def seat (room : WaitingRoom) (id : String) (w : Option Waiter) : WaitingRoom :=
  { room with waiter? := fun other => if other = id then w else room.waiter? other }

/-- The room after a session was created. -/
def enroll (room : WaitingRoom) (id : String) : WaitingRoom :=
  { room.seat id (some { serial := room.nextSerial, awaiting := {} }) with
    nextSerial := room.nextSerial + 1 }

/-- The room with the waiters who stay. -/
def keep (room : WaitingRoom) (stays : String → Bool) : WaitingRoom :=
  { room with waiter? := fun id => if stays id then room.waiter? id else none }

/-- The room with what some events have to report. -/
def report (room : WaitingRoom) (events : List WaitEvent) : WaitingRoom :=
  { room with reports := room.reports ++ WaitEvent.reports events }

/-- The wait that is armed next. -/
def nextWait (w : Waiter) (request : InputRequest) (now : Nanos) : PendingInput :=
  { request, generation := w.awaiting.generation + 1, deadline := request.timeout.map (now + ·) }

/-- One move, with what it does to waits.  `active` is the session of the event that is
handled at that time, if there is one. -/
inductive Move (active : Option String) : WaitingRoom → List WaitEvent → WaitingRoom → Prop
  | join {room : WaitingRoom} {id : String} (hactive : active = none)
      (h : room.waiter? id = none) :
      Move active room [] (room.enroll id)
  | leave {room : WaitingRoom} (stays : String → Bool)
      (hactive : ∀ id, active = some id → stays id = true) :
      Move active room [] (room.keep stays)
  | arm {room : WaitingRoom} {id : String} {w : Waiter} (hactive : active = some id)
      (h : room.waiter? id = some w) (hidle : w.awaiting.pending = none)
      (request : InputRequest) (now : Nanos) :
      Move active room [.armed ⟨id, w.serial, nextWait w request now⟩]
        (room.seat id (some { w with awaiting := (w.awaiting.arm request now).2 }))
  | finish {room : WaitingRoom} {id : String} {w : Waiter} {p : PendingInput} (how : Ending)
      (hactive : how = .settled ↔ active = some id) (h : room.waiter? id = some w)
      (hpending : w.awaiting.pending = some p) :
      Move active room [.ended ⟨id, w.serial, p⟩ how]
        ((room.seat id (some { w with awaiting := w.awaiting.take })).report
          [.ended ⟨id, w.serial, p⟩ how])

/-- Any number of moves, with the list of what they do to waits. -/
inductive Moves (active : Option String) : WaitingRoom → List WaitEvent → WaitingRoom → Prop
  | refl (room : WaitingRoom) : Moves active room [] room
  | tail {before between after : WaitingRoom} {past present : List WaitEvent}
      (h : Moves active before past between) (hlast : Move active between present after) :
      Moves active before (past ++ present) after

variable {active : Option String} {room before between after : WaitingRoom}
  {past present events : List WaitEvent}

theorem Move.moves (h : Move active before present after) : Moves active before present after :=
  .tail (.refl before) h

theorem moves_of_eq (h : before = after) : Moves active before [] after := by
  rw [h]
  exact .refl after

theorem Moves.trans (hfirst : Moves active before past between)
    (hsecond : Moves active between present after) :
    Moves active before (past ++ present) after := by
  induction hsecond with
  | refl => rwa [List.append_nil]
  | tail _ hlast ih =>
      rw [← List.append_assoc]
      exact .tail ih hlast

/-- A waiter who is replaced by itself. -/
theorem seat_self {id : String} {w : Waiter} (h : room.waiter? id = some w) :
    room.seat id (some w) = room := by
  obtain ⟨waiter?, nextSerial, reports⟩ := room
  simp only [seat, mk.injEq, and_self, and_true]
  funext other
  split
  · rename_i heq
    rw [heq]
    exact h.symm
  · rfl

/-- Whoever is seated later replaces whoever was seated there before. -/
theorem seat_seat (room : WaitingRoom) (id : String) (w v : Option Waiter) :
    (room.seat id w).seat id v = room.seat id v := by
  simp only [seat, mk.injEq, and_self, and_true]
  funext other
  split <;> rfl

theorem waiter?_seat_self (id : String) (w : Option Waiter) : (room.seat id w).waiter? id = w :=
  if_pos rfl

theorem waiter?_seat_of_ne {id other : String} (w : Option Waiter) (h : other ≠ id) :
    (room.seat id w).waiter? other = room.waiter? other :=
  if_neg h

/-- Only what timed out is reported. -/
theorem report_settled (room : WaitingRoom) (wait : Wait) :
    room.report [.ended wait .settled] = room :=
  WaitingRoom.ext rfl rfl (List.append_nil _)

theorem waiter?_keep (stays : String → Bool) (id : String) :
    (room.keep stays).waiter? id = if stays id then room.waiter? id else none := rfl

/-- The events account for who is in the room, for what is pending, and for the reports. -/
structure Accounted (room : WaitingRoom) (events : List WaitEvent) : Prop where
  serial_lt : ∀ {id w}, room.waiter? id = some w → w.serial < room.nextSerial
  pending_armed : ∀ {id w p}, room.waiter? id = some w → w.awaiting.pending = some p →
    ⟨id, w.serial, p⟩ ∈ arms events
  pending_open : ∀ {id w p}, room.waiter? id = some w → w.awaiting.pending = some p →
    (id, w.serial, p.generation) ∉ (ends events).map Wait.name
  armed_lt : ∀ wait ∈ arms events, wait.serial < room.nextSerial
  armed_le : ∀ wait ∈ arms events, ∀ {w}, room.waiter? wait.sessionId = some w →
    w.serial = wait.serial → wait.pending.generation ≤ w.awaiting.generation
  armed_once : ((arms events).map Wait.name).Nodup
  ended_armed : ∀ wait ∈ ends events, wait ∈ arms events
  ended_once : ((ends events).map Wait.name).Nodup
  reported : room.reports = WaitEvent.reports events

/-- Nobody has entered yet. -/
def empty : WaitingRoom where
  waiter? _ := none
  nextSerial := 0
  reports := []

/-- In an empty room nothing has happened. -/
theorem accounted_empty : empty.Accounted [] where
  serial_lt h := nomatch h
  pending_armed h := nomatch h
  pending_open h := nomatch h
  armed_lt _ h := nomatch h
  armed_le _ h := nomatch h
  armed_once := .nil
  ended_armed _ h := nomatch h
  ended_once := .nil
  reported := rfl

namespace Accounted

/-- A new waiter has a serial number that no wait was armed under. -/
theorem join (h : room.Accounted events) (id : String) :
    (room.enroll id).Accounted events := by
  have hseated {other : String} {w : Waiter}
      (hw : (room.seat id (some { serial := room.nextSerial, awaiting := {} })).waiter? other =
        some w) :
      room.waiter? other = some w ∨ w = { serial := room.nextSerial, awaiting := {} } := by
    simp only [seat] at hw
    split at hw
    · exact .inr (Option.some.inj hw).symm
    · exact .inl hw
  constructor
  case serial_lt =>
    intro other w hw
    rcases hseated hw with hold | rfl
    · exact Nat.lt_succ_of_lt (h.serial_lt hold)
    · exact Nat.lt_succ_self _
  case pending_armed =>
    intro other w p hw hp
    rcases hseated hw with hold | rfl
    · exact h.pending_armed hold hp
    · cases hp
  case pending_open =>
    intro other w p hw hp
    rcases hseated hw with hold | rfl
    · exact h.pending_open hold hp
    · cases hp
  case armed_lt => exact fun wait hwait => Nat.lt_succ_of_lt (h.armed_lt wait hwait)
  case armed_le =>
    intro wait hwait w hw hserial
    rcases hseated hw with hold | rfl
    · exact h.armed_le wait hwait hold hserial
    · -- every wait so far was armed under a lower serial number
      exact absurd (h.armed_lt wait hwait) (by simp [← hserial])
  case armed_once => exact h.armed_once
  case ended_armed => exact h.ended_armed
  case ended_once => exact h.ended_once
  case reported => exact h.reported

/-- Who leaves takes nothing along but a wait that never ends. -/
theorem leave (h : room.Accounted events) (stays : String → Bool) :
    (room.keep stays).Accounted events := by
  have hstayed {id : String} {w : Waiter}
      (hw : (if stays id then room.waiter? id else none) = some w) : room.waiter? id = some w := by
    split at hw
    · exact hw
    · cases hw
  exact {
    serial_lt := fun hw => h.serial_lt (hstayed hw)
    pending_armed := fun hw => h.pending_armed (hstayed hw)
    pending_open := fun hw => h.pending_open (hstayed hw)
    armed_lt := h.armed_lt
    armed_le := fun wait hwait _ hw => h.armed_le wait hwait (hstayed hw)
    armed_once := h.armed_once
    ended_armed := h.ended_armed
    ended_once := h.ended_once
    reported := h.reported }

/-- Whoever else is seated was there before. -/
theorem waiter?_of_seat {id other : String} {w v : Waiter}
    (hv : (room.seat id (some w)).waiter? other = some v) :
    (other = id ∧ v = w) ∨ (other ≠ id ∧ room.waiter? other = some v) := by
  simp only [seat] at hv
  split at hv
  · rename_i heq
    exact .inl ⟨heq, (Option.some.inj hv).symm⟩
  · rename_i hne
    exact .inr ⟨hne, hv⟩

/-- The generation of a new wait is higher than that of any wait its session armed. -/
theorem arm (h : room.Accounted events) {id : String} {w : Waiter}
    (hw : room.waiter? id = some w) (request : InputRequest) (now : Nanos) :
    Accounted (room.seat id (some { w with awaiting := (w.awaiting.arm request now).2 }))
      (events ++ [.armed ⟨id, w.serial, nextWait w request now⟩]) := by
  have hfresh : ∀ wait ∈ arms events, wait.name ≠ (id, w.serial, w.awaiting.generation + 1) := by
    intro wait hwait hname
    obtain ⟨hid, hserial, hgeneration⟩ : wait.sessionId = id ∧ wait.serial = w.serial ∧
        wait.pending.generation = w.awaiting.generation + 1 := by
      simpa [Wait.name] using hname
    have hle := h.armed_le wait hwait (hid ▸ hw) hserial.symm
    omega
  have hends : ends (events ++ [.armed ⟨id, w.serial, nextWait w request now⟩]) = ends events := by
    rw [ends_append, ends_armed, List.append_nil]
  constructor
  case serial_lt =>
    intro other v hv
    rcases waiter?_of_seat hv with ⟨-, rfl⟩ | ⟨-, hold⟩
    · have hlt := h.serial_lt hw
      exact hlt
    · exact h.serial_lt hold
  case pending_armed =>
    intro other v p hv hp
    rw [arms_append, arms_armed]
    rcases waiter?_of_seat hv with ⟨rfl, rfl⟩ | ⟨-, hold⟩
    · cases hp
      exact List.mem_append_right _ List.mem_cons_self
    · exact List.mem_append_left _ (h.pending_armed hold hp)
  case pending_open =>
    intro other v p hv hp
    rw [hends]
    rcases waiter?_of_seat hv with ⟨rfl, rfl⟩ | ⟨-, hold⟩
    · cases hp
      -- what has ended was armed before, so it has another name
      intro hended
      obtain ⟨wait, hwait, hname⟩ := List.mem_map.1 hended
      exact hfresh wait (h.ended_armed wait hwait) hname
    · exact h.pending_open hold hp
  case armed_lt =>
    intro wait hwait
    rw [arms_append, arms_armed] at hwait
    rcases List.mem_append.1 hwait with hold | hnew
    · exact h.armed_lt wait hold
    · rw [List.mem_singleton.1 hnew]
      exact h.serial_lt hw
  case armed_le =>
    intro wait hwait v hv hserial
    rw [arms_append, arms_armed] at hwait
    rcases List.mem_append.1 hwait with hold | hnew
    · rcases waiter?_of_seat hv with ⟨hid, rfl⟩ | ⟨-, hother⟩
      · rw [← hid] at hw
        -- an earlier wait of the same session: the generation has gone up by one
        have hle := h.armed_le wait hold hw hserial
        exact Nat.le_succ_of_le hle
      · exact h.armed_le wait hold hother hserial
    · cases List.mem_singleton.1 hnew
      rcases waiter?_of_seat hv with ⟨-, rfl⟩ | ⟨hne, -⟩
      · exact Nat.le_refl _
      · exact absurd rfl hne
  case armed_once =>
    rw [arms_append, arms_armed, List.map_append]
    refine List.nodup_append.2 ⟨h.armed_once, List.nodup_singleton _, ?_⟩
    rintro _ hold _ hnew rfl
    obtain ⟨wait, hwait, hname⟩ := List.mem_map.1 hold
    rw [List.map_singleton, List.mem_singleton] at hnew
    exact hfresh wait hwait (hname.trans hnew)
  case ended_armed =>
    intro wait hwait
    rw [hends] at hwait
    rw [arms_append]
    exact List.mem_append_left _ (h.ended_armed wait hwait)
  case ended_once =>
    rw [hends]
    exact h.ended_once
  case reported =>
    rw [reports_append, reports_armed, List.append_nil]
    exact h.reported

/-- A wait that ends was pending, so it was armed and has not ended before. -/
theorem finish (h : room.Accounted events) {id : String} {w : Waiter} {p : PendingInput}
    (hw : room.waiter? id = some w) (hpending : w.awaiting.pending = some p) (how : Ending) :
    Accounted
      ((room.seat id (some { w with awaiting := w.awaiting.take })).report
        [.ended ⟨id, w.serial, p⟩ how])
      (events ++ [.ended ⟨id, w.serial, p⟩ how]) := by
  have harms : arms (events ++ [.ended ⟨id, w.serial, p⟩ how]) = arms events := by
    rw [arms_append, arms_ended, List.append_nil]
  constructor
  case serial_lt =>
    intro other v hv
    rcases waiter?_of_seat hv with ⟨-, rfl⟩ | ⟨-, hold⟩
    · have hlt := h.serial_lt hw
      exact hlt
    · exact h.serial_lt hold
  case pending_armed =>
    intro other v q hv hq
    rw [harms]
    rcases waiter?_of_seat hv with ⟨rfl, rfl⟩ | ⟨-, hold⟩
    · cases hq
    · exact h.pending_armed hold hq
  case pending_open =>
    intro other v q hv hq
    rw [ends_append, ends_ended, List.map_append]
    rcases waiter?_of_seat hv with ⟨rfl, rfl⟩ | ⟨hne, hold⟩
    · cases hq
    · intro hmem
      rcases List.mem_append.1 hmem with hpast | hnow
      · exact h.pending_open hold hq hpast
      · -- the wait that ends now belongs to another identifier
        simp only [List.map_singleton, List.mem_singleton] at hnow
        exact hne (congrArg Prod.fst hnow)
  case armed_lt =>
    intro wait hwait
    rw [harms] at hwait
    exact h.armed_lt wait hwait
  case armed_le =>
    intro wait hwait v hv hserial
    rw [harms] at hwait
    rcases waiter?_of_seat hv with ⟨hid, rfl⟩ | ⟨-, hold⟩
    · rw [← hid] at hw
      have hle := h.armed_le wait hwait hw hserial
      exact hle
    · exact h.armed_le wait hwait hold hserial
  case armed_once =>
    rw [harms]
    exact h.armed_once
  case ended_armed =>
    intro wait hwait
    rw [harms]
    rw [ends_append, ends_ended] at hwait
    rcases List.mem_append.1 hwait with hpast | hnow
    · exact h.ended_armed wait hpast
    · rw [List.mem_singleton.1 hnow]
      exact h.pending_armed hw hpending
  case ended_once =>
    rw [ends_append, ends_ended, List.map_append]
    -- it was pending, so it is not among those that ended before
    refine List.nodup_append.2 ⟨h.ended_once, List.nodup_singleton _, ?_⟩
    rintro _ hold _ hnew rfl
    rw [List.map_singleton, List.mem_singleton] at hnew
    rw [hnew] at hold
    exact h.pending_open hw hpending hold
  case reported =>
    rw [reports_append, ← h.reported]
    rfl

/-- A move keeps the account. -/
theorem move (h : before.Accounted past) (hmove : Move active before present after) :
    after.Accounted (past ++ present) := by
  cases hmove with
  | join =>
      rw [List.append_nil]
      exact h.join _
  | leave stays =>
      rw [List.append_nil]
      exact h.leave stays
  | arm _ hw _ request now => exact h.arm hw request now
  | finish how _ hw hpending => exact h.finish hw hpending how

/-- Any number of moves keep the account. -/
theorem moves (h : before.Accounted past) (hmoves : Moves active before present after) :
    after.Accounted (past ++ present) := by
  induction hmoves with
  | refl =>
      rw [List.append_nil]
      exact h
  | tail _ hlast ih =>
      rw [← List.append_assoc]
      exact ih.move hlast

/-- A pending wait is one of the waits that its session armed so far. -/
theorem generation_le (h : room.Accounted events) {id : String} {w : Waiter} {p : PendingInput}
    (hw : room.waiter? id = some w) (hpending : w.awaiting.pending = some p) :
    p.generation ≤ w.awaiting.generation :=
  h.armed_le _ (h.pending_armed hw hpending) hw rfl

end Accounted

end WaitingRoom
end Dialogue
