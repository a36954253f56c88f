import Dialogue.Proofs.Schedule
import Dialogue.Proofs.Timeouts

/-!
# Deadlines

A timer names the wait that it was set for.  `WaitingRoom.Punctual` says of an alarm that it is
due at the deadline of that wait: if it is a timer and the wait it names is pending, then it is
due as soon as a clock of whole milliseconds shows the deadline.

Whatever happens to waits keeps this (`WaitingRoom.Punctual.moves`), since the generations of a
session only grow.  So it is enough that timers are punctual when they are set, and they are, at
every point of every run (`Engine.Reachable.punctual`).
-/

namespace Dialogue

/-- The time at which a clock shows the deadline of a wait.  It keeps whole milliseconds, and a
timeout that it cannot reach is replaced by one that it can. -/
def PendingInput.RingsAt (p : PendingInput) (time : Nanos) : Prop :=
  ∃ armed timeout, p.request.timeout = some timeout ∧ p.deadline = some (armed + timeout) ∧
    time = Nanos.wholeMillis (armed + timeout.withinReach)

/-- A wait whose timeout a clock can reach is due when its timer is. -/
theorem PendingInput.RingsAt.isDue {p : PendingInput} {time : Nanos} (h : p.RingsAt time)
    (hreach : ∀ timeout, p.request.timeout = some timeout → timeout < Nanos.reach) :
    p.isDue time = true := by
  obtain ⟨armed, timeout, htimeout, hdeadline, rfl⟩ := h
  rw [PendingInput.isDue, hdeadline, Nanos.withinReach_of_lt (hreach timeout htimeout)]
  exact decide_eq_true (Nanos.le_wholeMillis _)

/-! ## Rooms -/

namespace WaitingRoom

/-- A timer names a wait of a session that was enrolled, and is due at its deadline. -/
def Punctual (room : WaitingRoom) (alarm : Alarm) : Prop :=
  ∀ timer, alarm.errand = .endWait timer → timer.serial < room.nextSerial ∧
    ∀ w, room.waiter? timer.sessionId = some w → w.serial = timer.serial →
      timer.generation ≤ w.awaiting.generation ∧
      ∀ p, w.awaiting.pending = some p → p.generation = timer.generation → p.RingsAt alarm.due

variable {active : Option String} {room before after : WaitingRoom} {events : List WaitEvent}
  {alarm : Alarm}

/-- A sweep names no wait. -/
theorem Punctual.next {next : Alarm} (_ : room.Punctual alarm) (hnext : alarm.next? = some next) :
    room.Punctual next := by
  intro timer htimer
  unfold Alarm.next? at hnext
  split at hnext
  · cases hnext
  · rename_i hsweep
    cases hnext
    rw [hsweep] at htimer
    cases htimer

/-- It is enough to look at the waiter of the timer. -/
theorem Punctual.of_waiter? (h : before.Punctual alarm)
    (hnext : before.nextSerial ≤ after.nextSerial)
    (hwaiter : ∀ timer w, alarm.errand = .endWait timer → after.waiter? timer.sessionId = some w →
      w.serial = timer.serial → before.waiter? timer.sessionId = some w ∨
      ∃ v, before.waiter? timer.sessionId = some v ∧ v.serial = w.serial ∧
        v.awaiting.generation ≤ w.awaiting.generation ∧
        ∀ p, w.awaiting.pending = some p → v.awaiting.generation < p.generation) :
    after.Punctual alarm := by
  intro timer htimer
  obtain ⟨hserial, hwait⟩ := h timer htimer
  refine ⟨hserial.trans_le hnext, fun w hw hsame => ?_⟩
  rcases hwaiter timer w htimer hw hsame with hold | ⟨v, hv, heq, hgrown, hlater⟩
  · exact hwait w hold hsame
  · obtain ⟨hgeneration, -⟩ := hwait v hv (heq.trans hsame)
    refine ⟨hgeneration.trans hgrown, fun p hp hpast => ?_⟩
    -- what is pending now was armed after the timer was set
    have hlt := hlater p hp
    omega

theorem Punctual.move (h : before.Punctual alarm) (hmove : Move active before events after) :
    after.Punctual alarm := by
  cases hmove with
  | join =>
      refine h.of_waiter? (Nat.le_succ _) fun timer w htimer hw hsame => .inl ?_
      simp only [enroll, seat] at hw
      split at hw
      · -- a new waiter has a serial number that no timer knows
        cases hw
        exact absurd hsame.symm (Nat.ne_of_lt (h timer htimer).1)
      · exact hw
  | leave stays =>
      refine h.of_waiter? le_rfl fun timer w _ hw _ => .inl ?_
      rw [waiter?_keep] at hw
      split at hw
      · exact hw
      · cases hw
  | arm _ hseated _ request now =>
      refine h.of_waiter? le_rfl fun timer w _ hw _ => ?_
      rcases Accounted.waiter?_of_seat hw with ⟨hid, rfl⟩ | ⟨-, hold⟩
      · rw [hid]
        refine .inr ⟨_, hseated, rfl, Nat.le_succ _, ?_⟩
        rintro _ ⟨⟩
        exact Nat.lt_succ_self _
      · exact .inl hold
  | finish how _ hseated _ =>
      refine h.of_waiter? le_rfl fun timer w _ hw _ => ?_
      rcases Accounted.waiter?_of_seat hw with ⟨hid, rfl⟩ | ⟨-, hold⟩
      · rw [hid]
        refine .inr ⟨_, hseated, rfl, le_rfl, ?_⟩
        rintro _ ⟨⟩
      · exact .inl hold

/-- A timer that is punctual stays punctual, whatever happens to waits. -/
theorem Punctual.moves (h : before.Punctual alarm) (hmoves : Moves active before events after) :
    after.Punctual alarm := by
  induction hmoves with
  | refl => exact h
  | tail _ hlast ih => exact ih.move hlast

/-- The timer of a wait that was just armed is due at its deadline. -/
theorem punctual_of_armed {id : String} {w : Waiter} {request : InputRequest} {now timeout : Nanos}
    (hserial : w.serial < room.nextSerial)
    (hseated : room.waiter? id = some { w with awaiting := (w.awaiting.arm request now).2 })
    (htimeout : request.timeout = some timeout) :
    room.Punctual
      { due := Nanos.wholeMillis (now + timeout.withinReach)
        errand := .endWait ⟨id, w.serial, w.awaiting.generation + 1⟩ } := by
  rintro _ ⟨⟩
  refine ⟨hserial, fun v hv _ => ?_⟩
  rw [hseated] at hv
  cases hv
  refine ⟨le_rfl, ?_⟩
  rintro _ ⟨⟩ -
  refine ⟨now, timeout, htimeout, ?_, rfl⟩
  simp [htimeout]

end WaitingRoom

/-! ## Dispatch -/

/-- What happened to waits so far is accounted for, and the timers on the agenda are punctual. -/
structure Agenda.Punctual (a : Agenda) (room : WaitingRoom) : Prop where
  accounted : ∃ events, room.Accounted events
  timers : a.Carries room.Punctual

theorem Agenda.Punctual.moves {a b : Agenda} {active : Option String} {before after : WaitingRoom}
    {events : List WaitEvent} (h : a.Punctual before)
    (hmoves : WaitingRoom.Moves active before events after)
    (hcarries : b.Carries before.Punctual) : b.Punctual after := by
  obtain ⟨past, hpast⟩ := h.accounted
  refine ⟨⟨_, hpast.moves hmoves⟩, ⟨.next, fun alarm halarm => ?_, fun alarm halarm => ?_⟩⟩
  · exact (hcarries.alarms alarm halarm).moves hmoves
  · exact (hcarries.ready alarm halarm).moves hmoves

namespace Context

variable {σ : Type} {before between after : Context σ}

/-- What a dispatch does leaves timers punctual. -/
def KeepsPunctual (before after : Context σ) : Prop :=
  before.Accounts after ∧
    (before.Guarded → before.agenda.Punctual before.room → after.agenda.Punctual after.room)

/-- Where no timer is set it is enough that what happens to waits is accounted for. -/
theorem keepsPunctual_of_accounts (haccounts : before.Accounts after)
    (hcarries : ∀ {E}, before.agenda.Carries E → after.agenda.Carries E) :
    before.KeepsPunctual after := by
  refine ⟨haccounts, fun hguarded h => ?_⟩
  obtain ⟨-, -, events, hmoves⟩ := haccounts hguarded
  exact h.moves hmoves (hcarries h.timers)

theorem keepsPunctual_of_eq (hagenda : after.agenda = before.agenda)
    (hid : after.session.id = before.session.id)
    (hwaiter : after.session.waiter = before.session.waiter) : before.KeepsPunctual after :=
  keepsPunctual_of_accounts (accounts_of_eq hagenda hid hwaiter) fun h => hagenda ▸ h

theorem KeepsPunctual.trans (hfirst : before.KeepsPunctual between)
    (hsecond : between.KeepsPunctual after) : before.KeepsPunctual after :=
  ⟨hfirst.1.trans hsecond.1,
    fun hguarded h => hsecond.2 (hfirst.1 hguarded).1 (hfirst.2 hguarded h)⟩

/-- The timer that is set for a new wait is due at its deadline. -/
theorem keepsPunctual_arm (ctx : Context σ) (request : InputRequest) :
    ctx.KeepsPunctual ((Input.arm request).on ctx).2 := by
  have haccounts := ctx.accounts_arm request
  refine ⟨haccounts, fun hguarded h => ?_⟩
  obtain ⟨-, -, events, hmoves⟩ := haccounts hguarded
  have hkept := h.moves (b := ctx.agenda) hmoves h.timers
  simp only [Input.arm, Eval.on_update] at hkept ⊢
  cases htimeout : request.timeout with
  | none =>
      rw [htimeout] at hkept
      exact hkept
  | some timeout =>
      rw [htimeout] at hkept
      refine ⟨hkept.accounted, hkept.timers.schedule _ timeout ?_⟩
      obtain ⟨past, hpast⟩ := hkept.accounted
      let armed : Waiter :=
        { ctx.session.waiter with
          awaiting := (ctx.session.awaiting.arm request ctx.agenda.now).2 }
      have hseated : (ctx.agenda.room.seat ctx.session.id (some armed)).waiter? ctx.session.id =
          some armed := WaitingRoom.waiter?_seat_self _ _
      have hserial : armed.serial < ctx.agenda.room.nextSerial := hpast.serial_lt hseated
      exact WaitingRoom.punctual_of_armed (w := ctx.session.waiter) hserial hseated htimeout

theorem keepsPunctual_call (ctx : Context σ) (outside : σ) (span : Nanos) :
    ctx.KeepsPunctual { ctx with outside, agenda := ctx.agenda.pause span } :=
  keepsPunctual_of_accounts (ctx.accounts_pause outside span) fun h => h.pause span

end Context

namespace Engine

variable {σ : Type} {e : Engine σ}

theorem keepsPunctual (e : Engine σ) : e.Lasting Context.KeepsPunctual where
  framing :=
    { refl := fun _ => Context.keepsPunctual_of_eq rfl rfl rfl
      trans := .trans
      locals := fun _ h => h
      action := fun _ h => h
      params := fun _ h => h }
  advances := by
    rintro before _ ⟨storage, effects, -, -, rfl⟩
    exact Context.keepsPunctual_of_eq rfl rfl rfl
  effects _ := Context.keepsPunctual_of_eq rfl rfl rfl
  belongings _ _ _ _ _ := Context.keepsPunctual_of_eq rfl rfl rfl
  navigation _ _ _ := Context.keepsPunctual_of_eq rfl rfl rfl
  arm := Context.keepsPunctual_arm
  clear ctx := Context.keepsPunctual_of_accounts ctx.accounts_take id
  callback _ _ _ := Context.keepsPunctual_of_eq rfl rfl rfl
  message _ _ _ := Context.keepsPunctual_of_eq rfl rfl rfl
  call ctx _ span := ctx.keepsPunctual_call _ span

/-! ## Runs -/

/-- Before an event is routed no alarm is set. -/
theorem plan_received (house : House σ) (event : Event) :
    (e.received house event).agenda.now = house.agenda.now ∧
    (e.received house event).agenda.alarms = house.agenda.alarms ∧
    (e.received house event).agenda.ready = house.agenda.ready ∧
    (e.received house event).agenda.heldBack = house.agenda.heldBack := by
  unfold received endOverdue touch checkOut
  split <;> exact ⟨rfl, rfl, rfl, rfl⟩

theorem punctual_handle (builtIn : e.BuiltIn) (bound : Nat) {house : House σ} (event : Event)
    (htidy : house.agenda.store.Tidy) (h : house.agenda.Punctual house.room) :
    (e.handle bound house event).2.agenda.Punctual (e.handle bound house event).2.room := by
  obtain ⟨-, -, -, arrival, handling, departure, harrival, hhandling, hdeparture⟩ :=
    accounts_handle builtIn bound event htidy
  obtain ⟨-, halarms, hready, -⟩ := plan_received (e := e) house event
  have hreceived := h.moves harrival (h.timers.of_eq halarms hready)
  obtain ⟨-, hkept⟩ := e.keepsPunctual.route builtIn bound event.payload
    (e.checkOut house event.sessionId).2 (e.received house event)
  have hrouted := hkept (e.guarded_received htidy event).1 hreceived
  refine hrouted.moves hdeparture ?_
  rw [agenda_handle]
  have hstowed : (e.stowed bound house event).Carries (e.routed bound house event).room.Punctual :=
    hrouted.timers.of_eq rfl rfl
  exact hstowed.release _

/-- In every house that can be reached the timers are due at the deadlines of their waits. -/
theorem Reachable.punctual (builtIn : e.BuiltIn) {house : House σ} (h : e.Reachable house) :
    house.agenda.Punctual house.room := by
  obtain ⟨outside, hreaches⟩ := h
  induction hreaches with
  | refl =>
      refine ⟨⟨[], WaitingRoom.accounted_empty⟩, .next, ?_, ?_⟩
      all_goals rintro _ ⟨⟩
  | @tail between later hpast hstep ih =>
      have htidy := (Reachable.chronicle builtIn ⟨outside, hpast⟩).1
      have hquiet {b : Agenda} (haccounts : between.agenda.Accounts none b)
          (hcarries : b.Carries between.room.Punctual) : b.Punctual b.room := by
        obtain ⟨-, events, hmoves⟩ := haccounts ⟨htidy, by simp⟩
        exact ih.moves hmoves hcarries
      cases hstep with
      | event bound _ event => exact punctual_handle builtIn bound event htidy ih
      | advance _ time =>
          exact hquiet (Agenda.accountable.advance _ time) (ih.timers.advance time)
      | evict _ idle => exact hquiet (Agenda.accounts_evict _ _ idle) (ih.timers.of_eq rfl rfl)
      | remove _ sessionId =>
          exact hquiet (Agenda.accounts_remove _ sessionId) (ih.timers.of_eq rfl rfl)
      | watch =>
          have hsweep (due : Nanos) (s : Sweeper) :
              between.room.Punctual { due, errand := .sweep s } := nofun
          exact hquiet (Agenda.accountable.startSweeper _ _ _)
            (ih.timers.startSweeper hsweep _ _)
      | outside => exact ih

end Engine
end Dialogue
