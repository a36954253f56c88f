import Dialogue.Proofs.Lasting

/-!
# Runs

Between two moments of a run events were handled, time passed, sessions were evicted or
removed, idle eviction was started, or something happened outside.  `Engine.Reaches` is any
number of such steps, in any order; `Engine.Reachable` is a house that a run from a new house
leads to.

`Engine.SessionUpkeep` is the shape of a statement about single sessions that is kept by every
change of a session, and `Engine.SessionInvariant` of one that holds of new sessions as well.
`Engine.Reachable.all_sessions` says that it then holds of every live session at every point of
every run.
-/

namespace Dialogue

variable {σ : Type}

namespace Engine

/-- One step of a run. -/
inductive Step (e : Engine σ) : House σ → House σ → Prop
  | event (bound : Nat) (house : House σ) (event : Event) :
      Step e house (e.handle bound house event).2
  | advance (house : House σ) (time : Nanos) :
      Step e house { house with agenda := house.agenda.advance time }
  | evict (house : House σ) (idle : Nanos) :
      Step e house { house with
        agenda := { house.agenda with
          store := (house.agenda.store.evictIdle house.agenda.now idle).2 } }
  | remove (house : House σ) (sessionId : String) :
      Step e house { house with
        agenda := { house.agenda with store := house.agenda.store.remove sessionId } }
  | watch (house : House σ) : Step e house (e.watchIdle house)
  | outside (house : House σ) (outside : σ) : Step e house { house with outside }

/-- Any number of steps lead from one house to another. -/
def Reaches (e : Engine σ) : House σ → House σ → Prop :=
  Relation.ReflTransGen e.Step

/-- A run that starts in a new house leads there. -/
def Reachable (e : Engine σ) (house : House σ) : Prop :=
  ∃ outside, e.Reaches (e.newHouse outside) house

variable {e : Engine σ} {house later : House σ}

theorem reachable_newHouse (outside : σ) : e.Reachable (e.newHouse outside) :=
  ⟨outside, .refl⟩

theorem Reachable.step (h : e.Reachable house) (hstep : e.Step house later) :
    e.Reachable later := by
  obtain ⟨outside, hreaches⟩ := h
  exact ⟨outside, hreaches.tail hstep⟩

/-- What holds of new houses and is kept by every step holds of all that can be reached. -/
theorem Reachable.induct {P : House σ → Prop} (hnew : ∀ outside, P (e.newHouse outside))
    (hstep : ∀ {house later}, e.Step house later → P house → P later) (h : e.Reachable house) :
    P house := by
  obtain ⟨outside, hreaches⟩ := h
  induction hreaches with
  | refl => exact hnew outside
  | tail _ hlast ih => exact hstep hlast ih

end Engine

/-! ## Statements about every session -/

namespace SessionStore

/-- A property of every live session. -/
def All (P : Session → Prop) (s : SessionStore) : Prop :=
  ∀ entry ∈ s.sessions, P entry.2.session

variable {P : Session → Prop} {s : SessionStore}

theorem All.of_get? (h : s.All P) {id : String} {stored : StoredSession}
    (hget : s.get? id = some stored) : P stored.session :=
  h _ (Keyed.mem_of_get? hget)

theorem All.put (h : s.All P) (id : String) {stored : StoredSession} (hstored : P stored.session) :
    (s.put id stored).All P := by
  intro entry hentry
  rcases Keyed.mem_of_mem_put hentry with rfl | hold
  · exact hstored
  · exact h entry hold

theorem All.evictIdle (h : s.All P) (now idle : Nanos) : (s.evictIdle now idle).2.All P :=
  fun entry hentry => h entry (List.mem_filter.1 hentry).1

theorem All.remove (h : s.All P) (id : String) : (s.remove id).All P :=
  fun entry hentry => h entry (List.mem_filter.1 hentry).1

theorem All.modify (h : s.All P) (id : String) {f : StoredSession → StoredSession}
    (hf : ∀ stored, P stored.session → P (f stored).session) : (s.modify id f).All P := by
  unfold SessionStore.modify
  split
  · rename_i stored hget
    exact h.put id (hf stored (h.of_get? hget))
  · exact h

end SessionStore

/-- A property of the session at hand and of all that are stored. -/
def Context.All (P : Session → Prop) (ctx : Context σ) : Prop :=
  P ctx.session ∧ ctx.agenda.store.All P

/-- A property of sessions that survives what happens to them while nothing is done: they are
marked as active, and their waits end.  It says nothing about waits. -/
structure Session.IdleInvariant (P : Session → Prop) : Prop where
  touch : ∀ s now, P s → P (s.touch now)
  awaiting : ∀ (s : Session) awaiting, P s → P { s with awaiting }

namespace Session.IdleInvariant

variable {P : Session → Prop} (idle : Session.IdleInvariant P)
include idle

theorem agenda_lasting :
    Agenda.Lasting fun before after => before.store.All P → after.store.All P where
  refl _ h := h
  trans hfirst hsecond h := hsecond (hfirst h)
  evict a now idle h := h.evictIdle now idle
  plan _ _ _ _ _ h := h
  fire a timer h := by
    rcases a.fire_cases timer with hsame | ⟨_, -, -, hheld⟩ | ⟨stored, p, hget, -, -, -, -, hended⟩
    · rw [hsame]
      exact h
    · rw [hheld]
      exact h
    · rw [hended]
      exact h.put _ (idle.awaiting stored.session _ (h.of_get? hget))

theorem release {a : Agenda} (h : a.store.All P) (sessionId : String) :
    (a.release sessionId).store.All P := by
  refine idle.agenda_lasting.release (fun _ id hall => ?_) a sessionId h
  exact hall.modify id fun _ hstored => hstored

/-- The session of an event is put back when it was handled. -/
theorem departure (ctx : Context σ) (h : ctx.All P) :
    (Engine.checkIn (Engine.touch ctx)).agenda.store.All P := by
  have htouched : P (Engine.touch ctx).session := idle.touch _ _ h.1
  exact idle.release (h.2.put _ htouched) _

/-- An event finds a session that is stored, or a new one. -/
theorem arrival (e : Engine σ) {sessionId : String}
    (hfresh : ∀ serial now, P { id := sessionId, serial, lastActivity := now }) (house : House σ)
    (h : house.agenda.store.All P) :
    (Engine.endOverdue (Engine.touch (e.checkOut house sessionId).1)).All P := by
  have hout : (e.checkOut house sessionId).1.All P := by
    unfold Engine.checkOut SessionStore.getOrCreate
    dsimp only
    split
    · rename_i stored hget
      have hstored : P stored.session := h.of_get? hget
      exact ⟨hstored, h.put _ hstored⟩
    · have hnew := hfresh house.agenda.store.nextSerial house.agenda.now
      exact ⟨hnew, SessionStore.All.put (h.put sessionId hnew) sessionId hnew⟩
  unfold Engine.endOverdue
  split
  · exact ⟨idle.touch _ _ hout.1, hout.2⟩
  · exact ⟨idle.awaiting _ _ (idle.touch _ _ hout.1), hout.2⟩

end Session.IdleInvariant

/-- A property of sessions that survives every change of a session by an engine. -/
structure Engine.SessionUpkeep (e : Engine σ) (P : Session → Prop) : Prop
    extends Session.IdleInvariant P where
  belongings : ∀ (s : Session) data storage messages lastMessage, P s →
    P { s with data, storage, messages, lastMessage }
  navigation : ∀ (s : Session) {navigation}, Navigation.Moves e.scenario s.navigation navigation →
    P s → P { s with navigation }

/-- Such a property that new sessions have. -/
structure Engine.SessionInvariant (e : Engine σ) (P : Session → Prop) : Prop
    extends e.SessionUpkeep P where
  fresh : ∀ id serial now, P { id, serial, lastActivity := now }

variable {e : Engine σ} {P : Session → Prop}

theorem Engine.SessionUpkeep.lasting (upkeep : e.SessionUpkeep P) :
    e.Lasting fun before after => before.All P → after.All P where
  framing :=
    { refl := fun _ h => h
      trans := fun hfirst hsecond h => hsecond (hfirst h)
      locals := fun _ h => h
      action := fun _ h => h
      params := fun _ h => h }
  advances := by
    rintro before _ ⟨storage, effects, -, -, rfl⟩ ⟨hsession, hstored⟩
    exact ⟨upkeep.belongings _ _ storage _ _ hsession, hstored⟩
  effects _ h := h
  belongings _ _ _ _ _ h := ⟨upkeep.belongings _ _ _ _ _ h.1, h.2⟩
  navigation _ _ hmoves h := ⟨upkeep.navigation _ hmoves h.1, h.2⟩
  arm ctx request h := by
    simp only [Input.arm, Eval.on_update]
    split <;> exact ⟨upkeep.awaiting _ _ h.1, h.2⟩
  clear _ h := ⟨upkeep.awaiting _ _ h.1, h.2⟩
  callback _ _ _ h := h
  message _ _ _ h := h
  call ctx _ span h := ⟨h.1, upkeep.agenda_lasting.pause _ span h.2⟩

namespace Engine.SessionInvariant

variable (invariant : e.SessionInvariant P)
include invariant

theorem handle (builtIn : e.BuiltIn) (bound : Nat) (house : House σ) (event : Event)
    (h : house.agenda.store.All P) : (e.handle bound house event).2.agenda.store.All P := by
  have harrival := invariant.arrival e (invariant.fresh event.sessionId) house h
  have hrouted := invariant.lasting.route builtIn bound event.payload
    (e.checkOut house event.sessionId).2 _ harrival
  exact invariant.departure _ hrouted

theorem step (builtIn : e.BuiltIn) {house later : House σ} (hstep : e.Step house later)
    (h : house.agenda.store.All P) : later.agenda.store.All P := by
  cases hstep with
  | event bound house event => exact invariant.handle builtIn bound house event h
  | advance house time => exact invariant.agenda_lasting.advance _ time h
  | evict house idle => exact h.evictIdle _ idle
  | remove house sessionId => exact h.remove sessionId
  | watch house => exact invariant.agenda_lasting.startSweeper _ _ _ h
  | outside house outside => exact h

end Engine.SessionInvariant

/-- An invariant of sessions holds of every live session at every point of every run. -/
theorem Engine.Reachable.all_sessions (invariant : e.SessionInvariant P) (builtIn : e.BuiltIn)
    {house : House σ} (h : e.Reachable house) : house.agenda.store.All P := by
  refine h.induct (fun outside => ?_) fun hstep => invariant.step builtIn hstep
  rintro entry ⟨⟩

end Dialogue
