import Dialogue.Proofs.Runs
import Dialogue.Proofs.WaitingRoom

/-!
# The waits of a house

What a house does is a course of moves of a waiting room, whose waiters are the live sessions.
While an event is handled, the session of the event waits as it stands in the context, whatever
is still stored about it; its lock keeps timers and evictions away from it.

* `Agenda.accountable`: what an agenda does by itself are moves in which no session arms or
  settles a wait.
* `Engine.accountable`: what a dispatch does are moves of the session that is handled, and
  such moves of the agenda.
* `Engine.accounts_checkOut`, `Engine.accounts_endOverdue`, `Engine.accounts_checkIn`: what
  happens before and after a dispatch.
-/

namespace Dialogue

/-! ## Tidy stores -/

namespace SessionStore

/-- Sessions are in order, and each is stored under its identifier. -/
structure Tidy (s : SessionStore) : Prop where
  ordered : s.sessions.Ordered
  named : ∀ entry ∈ s.sessions, entry.2.session.id = entry.1

variable {s : SessionStore} {id : String} {stored : StoredSession}

theorem get?_put (s : SessionStore) (id : String) (stored : StoredSession) (other : String) :
    (s.put id stored).get? other = if other = id then some stored else s.get? other :=
  Keyed.get?_put s.sessions id other stored

theorem get?_remove (s : SessionStore) (id other : String) :
    (s.remove id).get? other = if other = id then none else s.get? other :=
  Keyed.get?_drop s.sessions id other

theorem Tidy.get?_evictIdle (h : s.Tidy) (now idle : Nanos) (id : String) :
    (s.evictIdle now idle).2.get? id =
      (s.get? id).filter fun stored => !isIdle stored now idle :=
  Keyed.get?_filter h.ordered _ id

theorem Tidy.id_eq (h : s.Tidy) (hget : s.get? id = some stored) : stored.session.id = id :=
  h.named _ (Keyed.mem_of_get? hget)

theorem Tidy.put (h : s.Tidy) (hid : stored.session.id = id) : (s.put id stored).Tidy where
  ordered := Keyed.ordered_put h.ordered id stored
  named := by
    intro entry hentry
    rcases Keyed.mem_of_mem_put hentry with rfl | hold
    · exact hid
    · exact h.named entry hold

theorem Tidy.evictIdle (h : s.Tidy) (now idle : Nanos) : (s.evictIdle now idle).2.Tidy where
  ordered := Keyed.ordered_filter h.ordered _
  named entry hentry := h.named entry (List.mem_filter.1 hentry).1

theorem Tidy.remove (h : s.Tidy) (id : String) : (s.remove id).Tidy where
  ordered := Keyed.ordered_drop h.ordered id
  named entry hentry := h.named entry (List.mem_filter.1 hentry).1

end SessionStore

/-! ## Rooms -/

/-- A session as a waiter. -/
def Session.waiter (s : Session) : Waiter := { serial := s.serial, awaiting := s.awaiting }

namespace Agenda

/-- The stored sessions as waiters, with what was reported. -/
def room (a : Agenda) : WaitingRoom where
  waiter? id := (a.store.get? id).map fun stored => stored.session.waiter
  nextSerial := a.store.nextSerial
  reports := a.notices.map fun notice => (notice.sessionId, notice.pending)

/-- The room in which a session that is handled waits as it stands. -/
def roomWith (a : Agenda) : Option Session → WaitingRoom
  | none => a.room
  | some s => a.room.seat s.id (some s.waiter)

/-- The store is tidy, and a session that is handled is stored and locked. -/
structure Guarded (a : Agenda) (active : Option Session) : Prop where
  tidy : a.store.Tidy
  locked : ∀ s, active = some s → ∃ stored, a.store.get? s.id = some stored ∧ stored.locked = true

variable {a : Agenda} {active : Option Session}

theorem guarded_of_get? {s : Session} {held : StoredSession} (htidy : a.store.Tidy)
    (hget : a.store.get? s.id = some held) (hlocked : held.locked = true) :
    a.Guarded (some s) := by
  refine ⟨htidy, ?_⟩
  rintro _ ⟨⟩
  exact ⟨held, hget, hlocked⟩

theorem Guarded.id_ne (h : a.Guarded active) {id : String} {stored : StoredSession}
    (hget : a.store.get? id = some stored) (hunlocked : stored.locked = false) :
    ∀ s, active = some s → id ≠ s.id := by
  rintro s hs rfl
  obtain ⟨held, hheld, hlocked⟩ := h.locked s hs
  rw [hget] at hheld
  cases hheld
  rw [hunlocked] at hlocked
  cases hlocked

/-- A stored session waits. -/
theorem waiter?_room {id : String} {stored : StoredSession} (hget : a.store.get? id = some stored) :
    a.room.waiter? id = some stored.session.waiter := by
  have hmap := congrArg (Option.map fun stored => stored.session.waiter) hget
  exact hmap

/-- Storing a session seats it. -/
theorem room_put (a : Agenda) (id : String) (stored : StoredSession) :
    ({ a with store := a.store.put id stored } : Agenda).room =
      a.room.seat id (some stored.session.waiter) := by
  refine WaitingRoom.ext (funext fun other => ?_) rfl rfl
  simp only [room, WaitingRoom.seat, SessionStore.get?_put]
  split <;> rfl

/-- Storing a session again, with the same wait, makes no difference to the room. -/
theorem room_put_same {id : String} {stored again : StoredSession}
    (hget : a.store.get? id = some stored) (hsame : again.session.waiter = stored.session.waiter) :
    ({ a with store := a.store.put id again } : Agenda).room = a.room := by
  rw [room_put, hsame]
  exact WaitingRoom.seat_self (waiter?_room hget)

/-- A stored session that is not the one at hand waits as it is stored. -/
theorem waiter?_roomWith (a : Agenda) {id : String} (hother : ∀ s, active = some s → id ≠ s.id) :
    (a.roomWith active).waiter? id = (a.store.get? id).map fun stored => stored.session.waiter := by
  cases active with
  | none => rfl
  | some s => exact WaitingRoom.waiter?_seat_of_ne _ (hother s rfl)

theorem waiter?_roomWith_self (a : Agenda) (s : Session) :
    (a.roomWith (some s)).waiter? s.id = some s.waiter :=
  WaitingRoom.waiter?_seat_self _ _

theorem nextSerial_roomWith (a : Agenda) (active : Option Session) :
    (a.roomWith active).nextSerial = a.store.nextSerial := by
  cases active <;> rfl

theorem reports_roomWith (a : Agenda) (active : Option Session) :
    (a.roomWith active).reports =
      a.notices.map fun notice => (notice.sessionId, notice.pending) := by
  cases active <;> rfl

/-- A room is known by the stored sessions that are not at hand. -/
theorem roomWith_eq {b : Agenda} {room : WaitingRoom}
    (hself : ∀ s, active = some s → room.waiter? s.id = some s.waiter)
    (hothers : ∀ id, (∀ s, active = some s → id ≠ s.id) →
      room.waiter? id = (b.store.get? id).map fun stored => stored.session.waiter)
    (hnext : room.nextSerial = b.store.nextSerial)
    (hreports : room.reports = b.notices.map fun notice => (notice.sessionId, notice.pending)) :
    b.roomWith active = room := by
  refine WaitingRoom.ext (funext fun id => ?_) ?_ ?_
  · by_cases hid : ∀ s, active = some s → id ≠ s.id
    · rw [waiter?_roomWith b hid, hothers id hid]
    · push Not at hid
      obtain ⟨s, rfl, rfl⟩ := hid
      rw [waiter?_roomWith_self, hself s rfl]
  · rw [nextSerial_roomWith, hnext]
  · rw [reports_roomWith, hreports]

/-! ## What an agenda does by itself -/

/-- If the earlier agenda is guarded, the later one is, and moves lead from the room of the
one to the room of the other. -/
def Accounts (active : Option Session) (before after : Agenda) : Prop :=
  before.Guarded active → after.Guarded active ∧ ∃ events,
    WaitingRoom.Moves (active.map Session.id) (before.roomWith active) events
      (after.roomWith active)

theorem accounts_refl (a : Agenda) : a.Accounts active a := fun h => ⟨h, [], .refl _⟩

theorem Accounts.trans {before between after : Agenda} (hfirst : before.Accounts active between)
    (hsecond : between.Accounts active after) : before.Accounts active after := by
  intro h
  obtain ⟨hbetween, past, hpast⟩ := hfirst h
  obtain ⟨hafter, present, hpresent⟩ := hsecond hbetween
  exact ⟨hafter, past ++ present, hpast.trans hpresent⟩

theorem Guarded.of_store_eq {b : Agenda} (h : a.Guarded active) (hstore : b.store = a.store) :
    b.Guarded active := by
  constructor
  · rw [hstore]
    exact h.tidy
  · intro s hs
    rw [hstore]
    exact h.locked s hs

/-- What is planned makes no difference to the room. -/
theorem accounts_plan (a : Agenda) (now : Nanos) (alarms ready : List Alarm)
    (heldBack : List InputTimer) : a.Accounts active { a with now, alarms, ready, heldBack } := by
  intro h
  refine ⟨h.of_store_eq rfl, [], ?_⟩
  cases active <;> exact .refl _

/-- Whether an eviction spares the session under an identifier. -/
def stays (a : Agenda) (now idle : Nanos) (id : String) : Bool :=
  (a.store.get? id).all fun stored => !SessionStore.isIdle stored now idle

/-- The session at hand is locked, so it is spared. -/
theorem Guarded.stays (h : a.Guarded active) (now idle : Nanos) {s : Session}
    (hs : active = some s) :
    a.stays now idle s.id = true ∧ ∃ stored,
      (a.store.evictIdle now idle).2.get? s.id = some stored ∧ stored.locked = true := by
  obtain ⟨stored, hget, hlocked⟩ := h.locked s hs
  have hbusy : SessionStore.isIdle stored now idle = false := by
    simp [SessionStore.isIdle, hlocked]
  constructor
  · simp [Agenda.stays, hget, hbusy]
  · refine ⟨stored, ?_, hlocked⟩
    rw [h.tidy.get?_evictIdle, hget]
    simp [Option.filter, hbusy]

/-- Eviction keeps the waiters whom it spares. -/
theorem roomWith_evictIdle (h : a.Guarded active) (now idle : Nanos) :
    ({ a with store := (a.store.evictIdle now idle).2 } : Agenda).roomWith active =
      (a.roomWith active).keep (a.stays now idle) := by
  refine roomWith_eq ?_ ?_ (nextSerial_roomWith a active) (reports_roomWith a active)
  · rintro s rfl
    rw [WaitingRoom.waiter?_keep, if_pos (h.stays now idle rfl).1, waiter?_roomWith_self]
  · intro id hid
    rw [WaitingRoom.waiter?_keep, waiter?_roomWith a hid, h.tidy.get?_evictIdle]
    cases hget : a.store.get? id with
    | none => simp
    | some stored =>
        simp only [Agenda.stays, hget, Option.all_some, Option.filter]
        split <;> rfl

/-- Eviction lets waiters leave, but not the one at hand. -/
theorem accounts_evict (a : Agenda) (now idle : Nanos) :
    a.Accounts active { a with store := (a.store.evictIdle now idle).2 } := by
  intro h
  have hspared : ∀ id, active.map Session.id = some id → a.stays now idle id = true := by
    intro id hid
    obtain ⟨s, hs, rfl⟩ := Option.map_eq_some_iff.1 hid
    exact (h.stays now idle hs).1
  refine ⟨⟨h.tidy.evictIdle now idle, fun s hs => (h.stays now idle hs).2⟩, [], ?_⟩
  rw [roomWith_evictIdle h]
  exact (WaitingRoom.Move.leave _ hspared).moves

/-- Relieving a session seats it without its wait, and reports the wait. -/
theorem roomWith_relieve (a : Agenda) {id : String} (stored : StoredSession) (p : PendingInput)
    (hother : ∀ s, active = some s → id ≠ s.id) :
    (a.relieve id stored p).roomWith active =
      ((a.roomWith active).seat id (some (relieved stored).session.waiter)).report
        [.ended ⟨id, stored.session.serial, p⟩ .timedOut] := by
  refine roomWith_eq ?_ ?_ (nextSerial_roomWith a active) ?_
  · rintro s rfl
    have hne := (hother s rfl).symm
    exact (WaitingRoom.waiter?_seat_of_ne _ hne).trans (waiter?_roomWith_self a s)
  · intro other hothers
    simp only [relieve, notify, SessionStore.get?_put, WaitingRoom.report, WaitingRoom.seat]
    split
    · rfl
    · exact waiter?_roomWith a hothers
  · simp [relieve, notify, WaitingRoom.report, WaitingRoom.seat, reports_roomWith,
      WaitEvent.reports, WaitEvent.report?]

/-- Relieving a session that is not locked is the end of its wait by time. -/
theorem accounts_relieve (h : a.Guarded active) {id : String} {stored : StoredSession}
    {p : PendingInput} (hget : a.store.get? id = some stored) (hunlocked : stored.locked = false)
    (hpending : stored.session.awaiting.pending = some p) :
    (a.relieve id stored p).Guarded active ∧ ∃ events,
      WaitingRoom.Moves (active.map Session.id) (a.roomWith active) events
        ((a.relieve id stored p).roomWith active) := by
  have hother := h.id_ne hget hunlocked
  have hguarded : (a.relieve id stored p).Guarded active := by
    constructor
    · have hid : stored.session.id = id := h.tidy.id_eq hget
      exact h.tidy.put hid
    · intro s hs
      obtain ⟨held, hheld, hlocked⟩ := h.locked s hs
      have hfound := SessionStore.get?_put a.store id (relieved stored) s.id
      rw [if_neg (hother s hs).symm] at hfound
      exact ⟨held, hfound.trans hheld, hlocked⟩
  have hseated : (a.roomWith active).waiter? id = some stored.session.waiter := by
    rw [waiter?_roomWith a hother, hget]
    rfl
  have hactive : Ending.timedOut = .settled ↔ active.map Session.id = some id := by
    constructor
    · rintro ⟨⟩
    · intro hid
      obtain ⟨s, hs, hid⟩ := Option.map_eq_some_iff.1 hid
      exact absurd hid.symm (hother s hs)
  have hmove := WaitingRoom.Move.finish .timedOut hactive hseated hpending
  exact ⟨hguarded, _, roomWith_relieve a stored p hother ▸ hmove.moves⟩

/-- A timer ends the wait of a waiter who is not at hand, or nothing. -/
theorem accounts_fire (a : Agenda) (timer : InputTimer) : a.Accounts active (a.fire timer) := by
  intro h
  rcases a.fire_cases timer with hsame | ⟨_, -, -, hheld⟩ |
      ⟨stored, p, hget, hunlocked, -, hpending, -, hended⟩
  · rw [hsame]
    exact accounts_refl a h
  · rw [hheld]
    exact accounts_plan a a.now a.alarms a.ready _ h
  · rw [hended]
    exact accounts_relieve h hget hunlocked hpending

theorem accountable : Agenda.Lasting (Accounts active) where
  refl := accounts_refl
  trans := .trans
  fire := accounts_fire
  evict := accounts_evict
  plan := accounts_plan

end Agenda

/-! ## What a dispatch does -/

namespace Context

variable {σ : Type}

/-- The room of a context: its session waits as it stands there. -/
def room (ctx : Context σ) : WaitingRoom :=
  ctx.agenda.room.seat ctx.session.id (some ctx.session.waiter)

/-- The session of the context is stored and locked. -/
def Guarded (ctx : Context σ) : Prop := ctx.agenda.Guarded (some ctx.session)

/-- If the earlier context is guarded, the later one is, of the same session, and moves of
this session lead from the room of the one to the room of the other. -/
def Accounts (before after : Context σ) : Prop :=
  before.Guarded → after.Guarded ∧ after.session.id = before.session.id ∧ ∃ events,
    WaitingRoom.Moves (some before.session.id) before.room events after.room

variable {before between after : Context σ}

theorem waiter?_room (ctx : Context σ) :
    ctx.room.waiter? ctx.session.id = some ctx.session.waiter :=
  WaitingRoom.waiter?_seat_self _ _

/-- Only the store and the identifier of the session matter to being guarded. -/
theorem Guarded.of_eq (h : before.Guarded) (hstore : after.agenda.store = before.agenda.store)
    (hid : after.session.id = before.session.id) : after.Guarded := by
  constructor
  · rw [hstore]
    exact h.tidy
  · rintro _ ⟨⟩
    rw [hstore, hid]
    exact h.locked _ rfl

/-- What is neither the wait nor on the agenda makes no difference. -/
theorem accounts_of_eq (hagenda : after.agenda = before.agenda)
    (hid : after.session.id = before.session.id)
    (hwaiter : after.session.waiter = before.session.waiter) : before.Accounts after := by
  intro h
  have hroom : after.room = before.room := by
    unfold room
    rw [hagenda, hid, hwaiter]
  exact ⟨h.of_eq (by rw [hagenda]) hid, hid, [], hroom ▸ .refl _⟩

theorem accounts_refl (ctx : Context σ) : ctx.Accounts ctx := accounts_of_eq rfl rfl rfl

theorem Accounts.trans (hfirst : before.Accounts between) (hsecond : between.Accounts after) :
    before.Accounts after := by
  intro h
  obtain ⟨hbetween, hid, past, hpast⟩ := hfirst h
  obtain ⟨hafter, hid', present, hpresent⟩ := hsecond hbetween
  rw [hid] at hpresent hid'
  exact ⟨hafter, hid', past ++ present, hpast.trans hpresent⟩

/-- The context with another wait. -/
def withAwaiting (ctx : Context σ) (awaiting : Awaiting) : Context σ :=
  { ctx with session := { ctx.session with awaiting } }

theorem room_withAwaiting (ctx : Context σ) (awaiting : Awaiting) :
    (ctx.withAwaiting awaiting).room =
      ctx.room.seat ctx.session.id (some { ctx.session.waiter with awaiting }) :=
  (WaitingRoom.seat_seat _ _ _ _).symm

/-- Taking the wait away settles it, if there is one. -/
theorem accounts_take (ctx : Context σ) :
    ctx.Accounts (ctx.withAwaiting ctx.session.awaiting.take) := by
  intro h
  refine ⟨h.of_eq rfl rfl, rfl, ?_⟩
  cases hpending : ctx.session.awaiting.pending with
  | none =>
      have hsame : ctx.session.awaiting.take = ctx.session.awaiting := by
        simp [Awaiting.take, ← hpending]
      rw [hsame]
      exact ⟨[], .refl _⟩
  | some p =>
      have hmove : WaitingRoom.Move (some ctx.session.id) _ _ _ :=
        .finish .settled (by simp) ctx.waiter?_room hpending
      rw [WaitingRoom.report_settled, ← room_withAwaiting] at hmove
      exact ⟨_, hmove.moves⟩

/-- A wait that is armed where there is none. -/
theorem accounts_arm_idle (ctx : Context σ) (request : InputRequest) (now : Nanos)
    (hidle : ctx.session.awaiting.pending = none) :
    ctx.Accounts (ctx.withAwaiting (ctx.session.awaiting.arm request now).2) := by
  intro h
  have hmove : WaitingRoom.Move (some ctx.session.id) _ _ _ :=
    .arm rfl ctx.waiter?_room hidle request now
  have hroom := (ctx.room_withAwaiting (ctx.session.awaiting.arm request now).2).symm
  exact ⟨h.of_eq rfl rfl, rfl, _, hroom ▸ hmove.moves⟩

/-- A wait that is armed settles the one it replaces. -/
theorem accounts_arm (ctx : Context σ) (request : InputRequest) :
    ctx.Accounts ((Input.arm request).on ctx).2 := by
  -- in the room a wait is replaced in two moves: the old one is settled, the new one armed
  have hcleared : ctx.Accounts (ctx.withAwaiting ctx.session.awaiting.take) := ctx.accounts_take
  have harmed := accounts_arm_idle (ctx.withAwaiting ctx.session.awaiting.take) request
    ctx.agenda.now rfl
  refine (hcleared.trans harmed).trans ?_
  simp only [Input.arm, Eval.on_update]
  cases request.timeout with
  | none => exact accounts_of_eq rfl rfl rfl
  | some timeout =>
      -- the timer goes on the agenda, which the room does not show
      intro h
      exact ⟨h.of_eq rfl rfl, rfl, [], .refl _⟩

theorem accounts_pause (ctx : Context σ) (outside : σ) (span : Nanos) :
    ctx.Accounts { ctx with outside, agenda := ctx.agenda.pause span } := by
  intro h
  obtain ⟨hguarded, events, hmoves⟩ := Agenda.accountable.pause ctx.agenda span h
  exact ⟨hguarded, rfl, events, hmoves⟩

end Context

namespace Engine

variable {σ : Type} (e : Engine σ)

theorem accountable : e.Lasting Context.Accounts where
  framing :=
    { refl := Context.accounts_refl
      trans := .trans
      locals := fun _ h => h
      action := fun _ h => h
      params := fun _ h => h }
  advances := by
    rintro before _ ⟨storage, effects, -, -, rfl⟩
    exact Context.accounts_of_eq rfl rfl rfl
  effects _ := Context.accounts_of_eq rfl rfl rfl
  belongings _ _ _ _ _ := Context.accounts_of_eq rfl rfl rfl
  navigation _ _ _ := Context.accounts_of_eq rfl rfl rfl
  arm := Context.accounts_arm
  clear := Context.accounts_take
  callback _ _ _ := Context.accounts_of_eq rfl rfl rfl
  message _ _ _ := Context.accounts_of_eq rfl rfl rfl
  call ctx _ span := ctx.accounts_pause _ span

end Engine

/-! ## Before and after a dispatch -/

/-- The room of a house. -/
def House.room {σ : Type} (house : House σ) : WaitingRoom := house.agenda.room

namespace Agenda

/-- A lock makes no difference to the room. -/
theorem accounts_unlock (a : Agenda) (id : String) : a.Accounts none (a.unlock id) := by
  intro h
  unfold Agenda.unlock SessionStore.modify
  split
  · rename_i stored hget
    have hid : stored.session.id = id := h.tidy.id_eq hget
    let unlocked : StoredSession := { stored with locked := false }
    have hwaiter : unlocked.session.waiter = stored.session.waiter := rfl
    have hroom := room_put_same hget hwaiter
    exact ⟨⟨h.tidy.put hid, by simp⟩, [], WaitingRoom.moves_of_eq hroom.symm⟩
  · exact accounts_refl a h

/-- Removing a session lets its waiter leave. -/
theorem accounts_remove (a : Agenda) (id : String) :
    a.Accounts none { a with store := a.store.remove id } := by
  intro h
  have hroom : ({ a with store := a.store.remove id } : Agenda).roomWith none =
      (a.roomWith none).keep fun other => other != id := by
    refine roomWith_eq (by simp) (fun other _ => ?_) rfl rfl
    rw [WaitingRoom.waiter?_keep, waiter?_roomWith a (by simp), SessionStore.get?_remove]
    by_cases hother : other = id
    · simp [hother]
    · simp [hother]
  have hmove : WaitingRoom.Move none (a.roomWith none) _ _ :=
    .leave (fun other => other != id) (by simp)
  exact ⟨⟨h.tidy.remove id, by simp⟩, _, hroom ▸ hmove.moves⟩

end Agenda

namespace Engine

variable {σ : Type} (e : Engine σ)

/-- A session that is there is locked, and goes on waiting as it stands. -/
theorem accounts_checkOut_of_some (house : House σ) {id : String} {stored : StoredSession}
    (h : house.agenda.store.Tidy) (hget : house.agenda.store.get? id = some stored) :
    (e.checkOut house id).1.Guarded ∧ (e.checkOut house id).1.session.id = id ∧ ∃ events,
      WaitingRoom.Moves none house.room events (e.checkOut house id).1.room := by
  have hid : stored.session.id = id := h.id_eq hget
  let held : StoredSession := { stored with locked := true }
  let a : Agenda := { house.agenda with store := house.agenda.store.put id held }
  have hroom : a.room = house.agenda.room := Agenda.room_put_same hget rfl
  have hheld : a.store.get? stored.session.id = some held := by
    rw [hid]
    exact Keyed.get?_put_self _ _ _
  -- what is at hand is still what is stored, so seating it changes nothing
  have hseat : a.room.seat stored.session.id (some stored.session.waiter) = house.room := by
    rw [hid, hroom]
    exact WaitingRoom.seat_self (Agenda.waiter?_room hget)
  unfold checkOut SessionStore.getOrCreate
  rw [hget]
  exact ⟨Agenda.guarded_of_get? (h.put hid) hheld rfl, hid, [],
    WaitingRoom.moves_of_eq hseat.symm⟩

/-- A session that is not there is created, and takes part from then on. -/
theorem accounts_checkOut_of_none (house : House σ) {id : String}
    (h : house.agenda.store.Tidy) (hget : house.agenda.store.get? id = none) :
    (e.checkOut house id).1.Guarded ∧ (e.checkOut house id).1.session.id = id ∧ ∃ events,
      WaitingRoom.Moves none house.room events (e.checkOut house id).1.room := by
  let fresh : StoredSession :=
    { session := { id, serial := house.agenda.store.nextSerial, lastActivity := house.agenda.now } }
  let held : StoredSession := { fresh with locked := true }
  -- the session is stored once when it is created and once more when it is locked
  let twice := (house.agenda.store.put id fresh).put id held
  let a : Agenda :=
    { house.agenda with store := { twice with nextSerial := house.agenda.store.nextSerial + 1 } }
  have hfresh : fresh.session.id = id := rfl
  have hheld : held.session.id = id := rfl
  have htidy : twice.Tidy := (h.put hfresh).put hheld
  have hguarded : a.Guarded (some fresh.session) := by
    have hfound : a.store.get? id = some held := Keyed.get?_put_self _ _ _
    exact Agenda.guarded_of_get? ⟨htidy.ordered, htidy.named⟩ hfound rfl
  have hseat : a.room.seat id (some fresh.session.waiter) = house.room.enroll id := by
    refine WaitingRoom.ext (funext fun other => ?_) rfl rfl
    have hother : a.store.get? other = twice.get? other := rfl
    simp only [WaitingRoom.seat, WaitingRoom.enroll, Agenda.room, House.room, hother, twice,
      SessionStore.get?_put]
    split <;> rfl
  have hjoin : WaitingRoom.Move none house.room [] (house.room.enroll id) := by
    refine .join rfl ?_
    simp only [House.room, Agenda.room, hget, Option.map_none]
  have hmoves : WaitingRoom.Moves none house.room []
      (a.room.seat id (some fresh.session.waiter)) := hseat ▸ hjoin.moves
  unfold checkOut SessionStore.getOrCreate
  rw [hget]
  exact ⟨hguarded, rfl, [], hmoves⟩

/-- The session of an event takes part from the moment it is created. -/
theorem accounts_checkOut (house : House σ) (id : String) (h : house.agenda.store.Tidy) :
    (e.checkOut house id).1.Guarded ∧ (e.checkOut house id).1.session.id = id ∧ ∃ events,
      WaitingRoom.Moves none house.room events (e.checkOut house id).1.room := by
  cases hget : house.agenda.store.get? id with
  | some stored => exact e.accounts_checkOut_of_some house h hget
  | none => exact e.accounts_checkOut_of_none house h hget

/-- What is overdue when an event arrives ends by time. -/
theorem accounts_endOverdue (ctx : Context σ) (h : ctx.Guarded) :
    (endOverdue ctx).Guarded ∧ (endOverdue ctx).session.id = ctx.session.id ∧ ∃ events,
      WaitingRoom.Moves none ctx.room events (endOverdue ctx).room := by
  unfold endOverdue Awaiting.expireIfDue Awaiting.endIf
  cases hpending : ctx.session.awaiting.pending with
  | none => exact ⟨h, rfl, [], .refl _⟩
  | some p =>
      dsimp only
      by_cases hdue : p.isDue ctx.agenda.now
      · rw [if_pos hdue]
        have hmove : WaitingRoom.Move none _ _ _ :=
          .finish .timedOut (by simp) ctx.waiter?_room hpending
        let after : Context σ :=
          { ctx.withAwaiting ctx.session.awaiting.take with
            agenda := ctx.agenda.notify ctx.session.id p true }
        have hroom : after.room = (ctx.room.seat ctx.session.id
            (some { ctx.session.waiter with awaiting := ctx.session.awaiting.take })).report
            [.ended ⟨ctx.session.id, ctx.session.serial, p⟩ .timedOut] := by
          rw [← ctx.room_withAwaiting]
          refine WaitingRoom.ext rfl rfl ?_
          exact List.map_append
        exact ⟨h.of_eq rfl rfl, rfl, _, hroom ▸ hmove.moves⟩
      · rw [if_neg hdue]
        exact ⟨h, rfl, [], .refl _⟩

/-- Putting the session back makes no difference to the room; then it is released. -/
theorem accounts_checkIn (ctx : Context σ) (h : ctx.Guarded) :
    (checkIn ctx).agenda.store.Tidy ∧ ∃ events,
      WaitingRoom.Moves none ctx.room events (checkIn ctx).room := by
  let stowed : StoredSession := { session := ctx.session, locked := true }
  let a : Agenda := { ctx.agenda with store := ctx.agenda.store.put ctx.session.id stowed }
  have hroom : a.room = ctx.room := ctx.agenda.room_put ctx.session.id stowed
  have hguarded : a.Guarded none := ⟨h.tidy.put rfl, by simp⟩
  obtain ⟨htidy, events, hmoves⟩ :=
    Agenda.accountable.release Agenda.accounts_unlock a ctx.session.id hguarded
  exact ⟨htidy.tidy, events, hroom ▸ hmoves⟩

end Engine
end Dialogue
