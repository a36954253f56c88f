import Dialogue.Proofs.Timeouts

/-!
# What remains of a session

While no event of it is routed, little becomes of a stored session: its wait may end, its lock
changes, and it may be gone.  `Agenda.Retains` says so of an agenda and a later one, and every
step that an agenda takes by itself keeps it (`Agenda.retains_lasting`).

`Engine.session_of_handle` follows the session of an event to the end of the handling: what is
then stored, if it is stored at all, is what routing the event left.
-/

namespace Dialogue

/-- A session at a later time, if it was left alone: its wait may have ended. -/
def Session.Remains (before after : Session) : Prop :=
  after = before ∨ after = { before with awaiting := before.awaiting.take }

namespace Session.Remains

variable {before between after : Session}

theorem trans (hfirst : before.Remains between) (hsecond : between.Remains after) :
    before.Remains after := by
  rcases hfirst with rfl | rfl <;> rcases hsecond with rfl | rfl
  · exact .inl rfl
  · exact .inr rfl
  · exact .inr rfl
  · exact .inr rfl

theorem data_eq (h : before.Remains after) : after.data = before.data := by
  rcases h with rfl | rfl <;> rfl

/-- A session that is left alone arms no wait. -/
theorem pending_eq_none (h : before.Remains after) (hidle : before.awaiting.pending = none) :
    after.awaiting.pending = none := by
  rcases h with rfl | rfl
  · exact hidle
  · rfl

end Session.Remains

namespace Agenda

/-- Whatever is stored later was stored before, and was left alone. -/
def Retains (before after : Agenda) : Prop :=
  before.store.Tidy → after.store.Tidy ∧ ∀ id later, after.store.get? id = some later →
    ∃ stored, before.store.get? id = some stored ∧ stored.session.Remains later.session

variable {before after : Agenda}

theorem retains_of_store_eq (h : after.store = before.store) : before.Retains after := by
  intro htidy
  rw [h]
  exact ⟨htidy, fun id later hget => ⟨later, hget, .inl rfl⟩⟩

/-- One session is stored anew. -/
theorem retains_put {id : String} {stored : StoredSession} (anew : StoredSession)
    (hget : before.store.get? id = some stored) (hid : anew.session.id = stored.session.id)
    (hremains : stored.session.Remains anew.session)
    (hstore : after.store = before.store.put id anew) : before.Retains after := by
  intro htidy
  rw [hstore]
  refine ⟨htidy.put (hid.trans (htidy.id_eq hget)), fun other later hlater => ?_⟩
  rw [SessionStore.get?_put] at hlater
  split at hlater
  · rename_i heq
    cases hlater
    exact ⟨stored, heq ▸ hget, hremains⟩
  · exact ⟨later, hlater, .inl rfl⟩

theorem retains_evict (a : Agenda) (now idle : Nanos) :
    a.Retains { a with store := (a.store.evictIdle now idle).2 } := by
  intro htidy
  refine ⟨htidy.evictIdle now idle, fun id later hget => ⟨later, ?_, .inl rfl⟩⟩
  rw [htidy.get?_evictIdle] at hget
  exact (Option.filter_eq_some_iff.1 hget).1

theorem retains_remove (a : Agenda) (id : String) :
    a.Retains { a with store := a.store.remove id } := by
  intro htidy
  refine ⟨htidy.remove id, fun other later hget => ⟨later, ?_, .inl rfl⟩⟩
  rw [SessionStore.get?_remove] at hget
  split at hget
  · cases hget
  · exact hget

theorem retains_lasting : Agenda.Lasting Retains where
  refl _ := retains_of_store_eq rfl
  trans hfirst hsecond htidy := by
    obtain ⟨hbetween, hkept⟩ := hfirst htidy
    obtain ⟨hafter, hkept'⟩ := hsecond hbetween
    refine ⟨hafter, fun id later hlater => ?_⟩
    obtain ⟨middle, hmiddle, hremains'⟩ := hkept' id later hlater
    obtain ⟨stored, hstored, hremains⟩ := hkept id middle hmiddle
    exact ⟨stored, hstored, hremains.trans hremains'⟩
  fire a timer := by
    rcases a.fire_cases timer with hsame | ⟨_, -, -, hheld⟩ | ⟨stored, p, hget, -, -, -, -, hended⟩
    · exact retains_of_store_eq (by rw [hsame])
    · exact retains_of_store_eq (by rw [hheld])
    · have hstore : (a.fire timer).store = a.store.put timer.sessionId (relieved stored) := by
        rw [hended]
        rfl
      exact retains_put (relieved stored) hget rfl (.inr rfl) hstore
  evict := retains_evict
  plan _ _ _ _ _ := retains_of_store_eq rfl

theorem retains_unlock (a : Agenda) (id : String) : a.Retains (a.unlock id) := by
  unfold unlock SessionStore.modify
  split
  · rename_i stored hget
    exact retains_put { stored with locked := false } hget rfl (.inl rfl) rfl
  · exact retains_of_store_eq rfl

end Agenda

namespace Engine

variable {σ : Type} {e : Engine σ} {bound : Nat} {house : House σ} {event : Event}

/-- Where sessions are stored in order when an event was routed, its session is stored as routing
left it, unless it is gone. -/
theorem session_of_stowed (htidy : (e.routed bound house event).agenda.store.Tidy) :
    let s := (touch (e.routed bound house event)).session
    (e.handle bound house event).2.agenda.store.Tidy ∧
    ∀ later, (e.handle bound house event).2.agenda.store.get? s.id = some later →
      s.Remains later.session := by
  intro s
  have hstowed : (e.stowed bound house event).store.Tidy := htidy.put rfl
  rw [agenda_handle]
  obtain ⟨hreleased, hkept⟩ :=
    Agenda.retains_lasting.release Agenda.retains_unlock (e.stowed bound house event)
      (e.routed bound house event).session.id hstowed
  refine ⟨hreleased, fun later hlater => ?_⟩
  obtain ⟨stored, hstored, hremains⟩ := hkept s.id later hlater
  have hput : (e.stowed bound house event).store.get? s.id =
      some { session := s, locked := true } := Keyed.get?_put_self _ _ _
  rw [hput] at hstored
  cases hstored
  exact hremains

/-- The session of an event is stored as routing the event left it, unless it is gone. -/
theorem session_of_handle (builtIn : e.BuiltIn) (bound : Nat) {house : House σ} (event : Event)
    (htidy : house.agenda.store.Tidy) :
    let s := (touch (e.routed bound house event)).session
    s.id = event.sessionId ∧
    ∀ later, (e.handle bound house event).2.agenda.store.get? event.sessionId = some later →
      s.Remains later.session := by
  intro s
  obtain ⟨hguarded, -⟩ := guarded_received (e := e) htidy event
  obtain ⟨hrouted, -⟩ := e.accountable.route builtIn bound event.payload
    (e.checkOut house event.sessionId).2 (e.received house event) hguarded
  obtain ⟨-, -, hid, -⟩ := accounts_handle builtIn bound event htidy
  have hsession : s.id = event.sessionId := hid
  have hkept := (session_of_stowed (e := e) hrouted.tidy).2
  refine ⟨hsession, fun later hlater => hkept later ?_⟩
  change (e.handle bound house event).2.agenda.store.get? s.id = some later
  rw [hsession]
  exact hlater

end Engine
end Dialogue
