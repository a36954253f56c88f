import Dialogue.Proofs.Sweeps

/-!
# Idle eviction

Sessions are created, marked as active, locked, released and removed, time passes, and now and then
those that are unlocked and have long been idle are evicted: by a sweep of its own, or by a sweeper
that was started at some time and sweeps once in every period.  `Agenda.after` is the agenda that
such activities lead to.

* `Agenda.sound_after`: what is on it are the sweeps that are due later, at whole numbers of periods
  after their sweepers were started.
* `Agenda.stays_iff`: one more activity leaves a session there exactly if it neither removes the
  session nor sweeps when the session is idle.
* `Agenda.idle_sessions_are_evicted`: what follows for single sweeps, for sessions that every sweep
  finds busy, and for sessions that are left alone.
-/

namespace Dialogue

/-! ## Changes of a store -/

namespace SessionStore

variable {s : SessionStore} {id : String}

theorem get?_modify (s : SessionStore) (id : String) (f : StoredSession → StoredSession)
    (other : String) :
    (s.modify id f).get? other = if other = id then (s.get? id).map f else s.get? other := by
  unfold modify
  split
  · rename_i stored hget
    rw [get?_put, hget]
    rfl
  · rename_i hnone
    split
    · rename_i heq
      rw [heq, hnone]
      rfl
    · rfl

theorem Tidy.modify (h : s.Tidy) (id : String) {f : StoredSession → StoredSession}
    (hf : ∀ stored, (f stored).session.id = stored.session.id) : (s.modify id f).Tidy := by
  unfold SessionStore.modify
  split
  · rename_i stored hget
    exact h.put ((hf stored).trans (h.id_eq hget))
  · exact h

@[simp] theorem nextSerial_modify (s : SessionStore) (id : String)
    (f : StoredSession → StoredSession) : (s.modify id f).nextSerial = s.nextSerial := by
  unfold modify
  split <;> rfl

/-- A session that is not there is created; one that is there stays as it is. -/
theorem getOrCreate_cases (s : SessionStore) (id : String) (now : Nanos) :
    (∃ stored, s.get? id = some stored ∧ (s.getOrCreate id now).2 = s) ∨
    s.get? id = none ∧
      (s.getOrCreate id now).2 = { s.put id
        { session := { id, serial := s.nextSerial, lastActivity := now } } with
        nextSerial := s.nextSerial + 1 } := by
  unfold getOrCreate
  split
  · rename_i stored hget
    exact .inl ⟨stored, hget, rfl⟩
  · rename_i hnone
    exact .inr ⟨hnone, rfl⟩

/-- Every session has a serial number that was given out, and was last active by now. -/
def Dated (s : SessionStore) (now : Nanos) : Prop :=
  ∀ id stored, s.get? id = some stored →
    stored.session.serial < s.nextSerial ∧ stored.session.lastActivity ≤ now

end SessionStore

namespace Agenda

/-! ## Activities -/

/-- Something that is done with sessions, or time that passes.  `evict` sweeps once, and `watch`
starts a sweeper. -/
inductive Activity where
  | create (id : String)
  | touch (id : String)
  | lock (id : String)
  | release (id : String)
  | remove (id : String)
  | evict (idle : Nanos)
  | watch (idle every : Nanos)
  | pass (span : Nanos)

/-- What an activity does. -/
def perform (a : Agenda) : Activity → Agenda
  | .create id => { a with store := (a.store.getOrCreate id a.now).2 }
  | .touch id =>
    { a with store := a.store.modify id fun stored =>
        { stored with session := stored.session.touch a.now } }
  | .lock id => { a with store := a.store.modify id fun stored => { stored with locked := true } }
  | .release id => a.unlock id
  | .remove id => { a with store := a.store.remove id }
  | .evict idle => { a with store := (a.store.evictIdle a.now idle).2 }
  | .watch idle every => a.startSweeper idle every
  | .pass span => a.pass span

/-- The agenda after some activities. -/
def after (acts : List Activity) : Agenda := acts.foldl perform {}

/-- A sweeper was started at a time. -/
def Starts (acts : List Activity) (idle every start : Nanos) : Prop :=
  ∃ first later, acts = first ++ .watch idle every :: later ∧ start = (after first).now

/-- A sweep is due at a time, a whole number of periods after its sweeper was started.  The period
is the span that the clock waits for. -/
def Due (acts : List Activity) (idle period time : Nanos) : Prop :=
  ∃ every start n, Starts acts idle every start ∧ period = every.withinReach ∧
    time = start + (n + 1) * period

/-- The next activity evicts, at some time, what has been idle for a span. -/
def Sweeps (acts : List Activity) (act : Activity) (idle time : Nanos) : Prop :=
  match act with
  | .evict span => idle = span ∧ time = (after acts).now
  | .pass span => (∃ period, 0 < period ∧ Due acts idle period time) ∧
      (after acts).now < time ∧ time ≤ (after acts).now + span
  | _ => False

/-- The session that got a serial number is stored under an identifier. -/
def Holds (acts : List Activity) (id : String) (serial : Nat) (stored : StoredSession) : Prop :=
  (after acts).store.get? id = some stored ∧ stored.session.serial = serial

/-- A session is not removed, and whenever others are evicted it is locked or was active less than
the span ago. -/
def Spared (first later : List Activity) (id : String) (serial : Nat) : Prop :=
  ∀ mid act rest, later = mid ++ act :: rest → act ≠ .remove id ∧
    ∀ idle time, Sweeps (first ++ mid) act idle time → ∀ stored,
      Holds (first ++ mid) id serial stored →
        stored.locked = true ∨ time - stored.session.lastActivity < idle

/-- As long as it is there, a session is unlocked and not marked as active any more. -/
def LeftAlone (first later : List Activity) (id : String) (serial : Nat) : Prop :=
  ∀ mid rest, later = mid ++ rest → ∀ stored, Holds (first ++ mid) id serial stored →
    stored.locked = false ∧ stored.session.lastActivity ≤ (after first).now

variable {acts first later : List Activity} {act : Activity} {id : String} {serial : Nat}
  {stored kept : StoredSession} {idle every period start time : Nanos}

theorem after_concat (acts : List Activity) (act : Activity) :
    after (acts ++ [act]) = (after acts).perform act := by
  rw [after, List.foldl_append]
  rfl

theorem starts_concat_iff :
    Starts (acts ++ [act]) idle every start ↔
      Starts acts idle every start ∨ act = .watch idle every ∧ start = (after acts).now := by
  constructor
  · rintro ⟨before, rest, heq, rfl⟩
    rcases rest.eq_nil_or_concat with rfl | ⟨rest, last, rfl⟩
    · obtain ⟨rfl, hlast⟩ := List.append_inj' heq rfl
      exact .inr ⟨(List.cons.inj hlast).1, rfl⟩
    · rw [List.concat_eq_append, ← List.cons_append, ← List.append_assoc] at heq
      exact .inl ⟨before, rest, (List.append_inj' heq rfl).1, rfl⟩
  · rintro (⟨before, rest, rfl, rfl⟩ | ⟨rfl, rfl⟩)
    · exact ⟨before, rest ++ [act], by simp, rfl⟩
    · exact ⟨acts, [], rfl, rfl⟩

theorem due_concat_iff :
    Due (acts ++ [act]) idle period time ↔ Due acts idle period time ∨
      ∃ every n, act = .watch idle every ∧ period = every.withinReach ∧
        time = (after acts).now + (n + 1) * period := by
  constructor
  · rintro ⟨every, start, n, hstarts, hperiod, htime⟩
    rcases starts_concat_iff.1 hstarts with hold | ⟨hact, rfl⟩
    · exact .inl ⟨every, start, n, hold, hperiod, htime⟩
    · exact .inr ⟨every, n, hact, hperiod, htime⟩
  · rintro (⟨every, start, n, hstarts, hperiod, htime⟩ | ⟨every, n, hact, hperiod, htime⟩)
    · exact ⟨every, start, n, starts_concat_iff.2 (.inl hstarts), hperiod, htime⟩
    · exact ⟨every, _, n, starts_concat_iff.2 (.inr ⟨hact, rfl⟩), hperiod, htime⟩

/-- What else is done makes no sweep due. -/
theorem due_concat_of_ne (hact : ∀ idle every, act ≠ .watch idle every) :
    Due (acts ++ [act]) idle period time ↔ Due acts idle period time := by
  rw [due_concat_iff]
  exact or_iff_left fun ⟨every, _, heq, _⟩ => hact idle every heq

/-! ## Time -/

theorem settle_of_ready {a : Agenda} (h : a.ready = []) : a.settle = a := by
  obtain ⟨now, store, alarms, ready, heldBack, notices⟩ := a
  subst h
  rfl

theorem pass_eq {a : Agenda} (h : a.ready = []) (span : Nanos) :
    a.pass span = { a.runUntil (a.now + span) with
      now := max (a.runUntil (a.now + span)).now (a.now + span) } := by
  rw [Agenda.pass, Agenda.advance, settle_of_ready h]

theorem now_pass (a : Agenda) (span : Nanos) : (a.pass span).now = a.now + span := by
  refine max_eq_right ((now_runUntil_le _ _).trans (max_le ?_ le_rfl))
  exact (now_settle a).le.trans (Nat.le_add_right _ _)

/-- Starting a sweeper is no sweep. -/
theorem startSweeper_frame (a : Agenda) (idle every : Nanos) :
    (a.startSweeper idle every).store = a.store ∧ (a.startSweeper idle every).now = a.now := by
  unfold startSweeper Agenda.start
  dsimp only
  split
  · rename_i hpos
    rw [if_neg (Nat.not_le_of_gt (Nat.lt_add_of_pos_right hpos))]
    exact ⟨rfl, rfl⟩
  · exact ⟨rfl, rfl⟩

/-- No serial number is given out while time passes. -/
theorem nextSerial_lasting :
    Lasting fun before after => after.store.nextSerial = before.store.nextSerial where
  refl _ := rfl
  trans hfirst hsecond := hsecond.trans hfirst
  fire a timer := by
    rcases a.fire_cases timer with hsame | ⟨_, -, -, hheld⟩ | ⟨_, _, -, -, -, -, -, hended⟩
    · rw [hsame]
    · rw [hheld]
    · rw [hended]
      rfl
  evict _ _ _ := rfl
  plan _ _ _ _ _ := rfl

/-! ## What holds after all activities -/

/-- The agenda after some activities: sessions are in order, and what is planned are the sweeps
that are due later. -/
structure Sound (acts : List Activity) : Prop where
  tidy : (after acts).store.Tidy
  dated : (after acts).store.Dated (after acts).now
  timely : (after acts).Timely
  only : (after acts).OnlySweeps
  ready : (after acts).ready = []
  ticks_iff : ∀ s time, (after acts).Ticks s time ↔
    Due acts s.idle s.every time ∧ (after acts).now < time

namespace Sound

/-- An activity that changes nothing but the store. -/
theorem of_store (h : Sound acts) (hact : ∀ idle every, act ≠ .watch idle every)
    {store : SessionStore} (hperform : (after acts).perform act = { after acts with store })
    (htidy : store.Tidy) (hdated : store.Dated (after acts).now) : Sound (acts ++ [act]) := by
  constructor <;> rw [after_concat, hperform]
  · exact htidy
  · exact hdated
  · exact h.timely.of_eq rfl rfl rfl
  · exact h.only.of_eq rfl rfl
  · exact h.ready
  · intro s time
    rw [due_concat_of_ne hact]
    exact h.ticks_iff s time

/-- As time passes, a session stays exactly if no sweep that is due by then finds it idle. -/
theorem get?_pass (h : Sound acts) (span : Nanos) :
    ((after acts).pass span).store.get? id = some stored ↔
      (after acts).store.get? id = some stored ∧ ∀ s tick, (after acts).Ticks s tick →
        tick ≤ (after acts).now + span → SessionStore.isIdle stored tick s.idle = false := by
  rw [pass_eq h.ready]
  exact get?_runUntil _ _ h.tidy h.only h.timely.sorted

theorem dated_modify (h : Sound acts) {f : StoredSession → StoredSession}
    (hf : ∀ stored, (f stored).session.serial = stored.session.serial ∧
      ((f stored).session.lastActivity = stored.session.lastActivity ∨
        (f stored).session.lastActivity = (after acts).now)) (id : String) :
    ((after acts).store.modify id f).Dated (after acts).now := by
  intro other stored hget
  rw [SessionStore.get?_modify] at hget
  rw [SessionStore.nextSerial_modify]
  split at hget
  · obtain ⟨old, hold, rfl⟩ := Option.map_eq_some_iff.1 hget
    obtain ⟨hserial, hpast⟩ := h.dated _ old hold
    obtain ⟨hsame, hactive⟩ := hf old
    refine ⟨hsame ▸ hserial, ?_⟩
    rcases hactive with heq | heq
    · exact heq ▸ hpast
    · exact heq.le
  · exact h.dated other stored hget

theorem create (h : Sound acts) (id : String) : Sound (acts ++ [.create id]) := by
  refine h.of_store nofun rfl ?_ ?_
  · rcases (after acts).store.getOrCreate_cases id (after acts).now with
      ⟨_, -, heq⟩ | ⟨-, heq⟩
    · rw [heq]
      exact h.tidy
    · rw [heq]
      let fresh : StoredSession :=
        { session :=
          { id, serial := (after acts).store.nextSerial, lastActivity := (after acts).now } }
      have hfresh : fresh.session.id = id := rfl
      exact ⟨(h.tidy.put hfresh).ordered, (h.tidy.put hfresh).named⟩
  · rcases (after acts).store.getOrCreate_cases id (after acts).now with
      ⟨_, -, heq⟩ | ⟨-, heq⟩
    · rw [heq]
      exact h.dated
    · rw [heq]
      intro other stored hget
      replace hget := (SessionStore.get?_put _ id _ other).symm.trans hget
      split at hget
      · cases hget
        exact ⟨Nat.lt_succ_self _, le_rfl⟩
      · obtain ⟨hserial, hpast⟩ := h.dated other stored hget
        exact ⟨Nat.lt_succ_of_lt hserial, hpast⟩

theorem remove (h : Sound acts) (id : String) : Sound (acts ++ [.remove id]) := by
  refine h.of_store nofun rfl (h.tidy.remove id) fun other stored hget => ?_
  rw [SessionStore.get?_remove] at hget
  split at hget
  · cases hget
  · exact h.dated other stored hget

theorem evict (h : Sound acts) (idle : Nanos) : Sound (acts ++ [.evict idle]) := by
  refine h.of_store nofun rfl (h.tidy.evictIdle _ idle) fun other stored hget => ?_
  rw [h.tidy.get?_evictIdle] at hget
  exact h.dated other stored (Option.filter_eq_some_iff.1 hget).1

/-- A sweeper that is started has its first sweep one period later. -/
theorem watch (h : Sound acts) (idle every : Nanos) : Sound (acts ++ [.watch idle every]) := by
  have hperform : after (acts ++ [.watch idle every]) = (after acts).startSweeper idle every :=
    after_concat acts _
  have hsame := (after acts).startSweeper_frame idle every
  constructor <;> rw [hperform]
  · rw [hsame.1]
    exact h.tidy
  · rw [hsame.1, hsame.2]
    exact h.dated
  · exact h.timely.startSweeper idle every
  · exact h.only.startSweeper (fun _ s => ⟨s, rfl⟩) idle every
  · exact (ready_startSweeper _ idle every).trans h.ready
  · intro s time
    rw [hsame.2, due_concat_iff, or_and_right, ← h.ticks_iff]
    have hperiods (n : Nat) : (after acts).now + every.withinReach + n * every.withinReach =
        (after acts).now + (n + 1) * every.withinReach := by
      rw [Nat.succ_mul, Nat.add_assoc, Nat.add_comm (n * _)]
    unfold startSweeper Agenda.start Ticks
    dsimp only
    split
    · rename_i hpos
      rw [if_neg (Nat.not_le_of_gt (Nat.lt_add_of_pos_right hpos))]
      constructor
      · rintro ⟨first, hfirst, hleads⟩
        rcases Alarm.mem_insertInto.1 hfirst with rfl | hold
        · obtain ⟨rfl, n, rfl⟩ := Alarm.leads_sweep_iff.1 hleads
          refine .inr ⟨⟨every, n, rfl, rfl, hperiods n⟩, ?_⟩
          exact lt_of_lt_of_le (Nat.lt_add_of_pos_right hpos) (Nat.le_add_right _ _)
        · exact .inl ⟨first, hold, hleads⟩
      · rintro (⟨first, hold, hleads⟩ | ⟨⟨_, n, hact, hperiod, rfl⟩, -⟩)
        -- the ticks of old sweepers, and those of the new one
        · exact ⟨first, Alarm.mem_insertInto.2 (.inr hold), hleads⟩
        · obtain ⟨idle', period, hpos'⟩ := s
          cases hact
          subst hperiod
          exact ⟨_, Alarm.mem_insertInto.2 (.inl rfl),
            Alarm.leads_sweep_iff.2 ⟨rfl, n, (hperiods n).symm⟩⟩
    · -- without a period nothing is started
      rename_i hzero
      refine (or_iff_left ?_).symm
      rintro ⟨⟨_, _, hact, hperiod, -⟩, -⟩
      cases hact
      exact hzero (hperiod ▸ s.every_pos)

/-- As time passes, what is due by then is carried out, and nothing else happens. -/
theorem pass (h : Sound acts) (span : Nanos) : Sound (acts ++ [.pass span]) := by
  have hperform : after (acts ++ [.pass span]) = (after acts).pass span := after_concat acts _
  have hnow := now_pass (after acts) span
  have hact : ∀ idle every, Activity.pass span ≠ .watch idle every := nofun
  have hguarded : (after acts).Guarded none := ⟨h.tidy, by simp⟩
  constructor <;> rw [hperform]
  · exact (accountable.advance (after acts) _ hguarded).1.tidy
  · rw [hnow]
    intro other stored hget
    obtain ⟨hold, -⟩ := (h.get?_pass span).1 hget
    obtain ⟨hserial, hpast⟩ := h.dated other stored hold
    refine ⟨hserial.trans_eq ?_, hpast.trans (Nat.le_add_right _ _)⟩
    exact (nextSerial_lasting.advance (after acts) _).symm
  · exact h.timely.advance _
  · exact h.only.advance _
  · exact ready_advance _ _
  · intro s time
    rw [hnow, due_concat_of_ne hact, pass_eq h.ready]
    refine (ticks_runUntil _ _ h.timely.sorted h.ready s time).trans ?_
    rw [h.ticks_iff, and_assoc]
    exact and_congr_right fun _ => and_iff_right_of_imp fun hlate =>
      lt_of_le_of_lt (Nat.le_add_right _ span) hlate

end Sound

theorem sound_nil : Sound [] where
  tidy := ⟨.nil, nofun⟩
  dated _ _ hget := nomatch hget
  timely := ⟨.nil, nofun, nofun⟩
  only := ⟨fun ⟨s, hs⟩ hnext => ⟨s, (Alarm.Leads.errand_eq (.single hnext)).trans hs⟩, nofun, nofun⟩
  ready := rfl
  ticks_iff s time := by
    refine ⟨fun ⟨_, hfirst, _⟩ => absurd hfirst List.not_mem_nil, ?_⟩
    rintro ⟨⟨_, _, _, ⟨before, rest, heq, -⟩, -⟩, -⟩
    exact absurd heq.symm (by simp)

/-- Whatever was done before, the agenda is in order. -/
theorem sound_after (acts : List Activity) : Sound acts := by
  induction acts using List.reverseRecOn with
  | nil => exact sound_nil
  | append_singleton acts act ih =>
      cases act with
      | create id => exact ih.create id
      | touch id =>
          refine ih.of_store nofun rfl (ih.tidy.modify id fun _ => rfl) (ih.dated_modify ?_ id)
          exact fun _ => ⟨rfl, .inr rfl⟩
      | lock id =>
          refine ih.of_store nofun rfl (ih.tidy.modify id fun _ => rfl) (ih.dated_modify ?_ id)
          exact fun _ => ⟨rfl, .inl rfl⟩
      | release id =>
          refine ih.of_store nofun rfl (ih.tidy.modify id fun _ => rfl) (ih.dated_modify ?_ id)
          exact fun _ => ⟨rfl, .inl rfl⟩
      | remove id => exact ih.remove id
      | evict idle => exact ih.evict idle
      | watch idle every => exact ih.watch idle every
      | pass span => exact ih.pass span

/-! ## One session -/

/-- What is stored was stored before, or has just been created. -/
theorem holds_concat (h : Holds (acts ++ [act]) id serial kept) :
    (∃ stored, Holds acts id serial stored) ∨ serial = (after acts).store.nextSerial := by
  obtain ⟨hget, rfl⟩ := h
  rw [after_concat] at hget
  have hsound := sound_after acts
  have hmodified {other : String} {f : StoredSession → StoredSession}
      (hget : ((after acts).store.modify other f).get? id = some kept)
      (hf : ∀ stored, (f stored).session.serial = stored.session.serial) :
      ∃ stored, Holds acts id kept.session.serial stored := by
    rw [SessionStore.get?_modify] at hget
    split at hget
    · rename_i heq
      obtain ⟨stored, hold, rfl⟩ := Option.map_eq_some_iff.1 hget
      exact ⟨stored, heq ▸ hold, (hf stored).symm⟩
    · exact ⟨kept, hget, rfl⟩
  cases act with
  | create other =>
      rcases (after acts).store.getOrCreate_cases other (after acts).now with
        ⟨_, -, heq⟩ | ⟨-, heq⟩
      · rw [perform, heq] at hget
        exact .inl ⟨kept, hget, rfl⟩
      · rw [perform, heq] at hget
        replace hget := (SessionStore.get?_put _ other _ id).symm.trans hget
        split at hget
        · cases hget
          exact .inr rfl
        · exact .inl ⟨kept, hget, rfl⟩
  | touch other | lock other | release other => exact .inl (hmodified hget fun _ => rfl)
  | remove other =>
      replace hget := (SessionStore.get?_remove _ other id).symm.trans hget
      split at hget
      · cases hget
      · exact .inl ⟨kept, hget, rfl⟩
  | evict idle =>
      replace hget := (hsound.tidy.get?_evictIdle _ idle id).symm.trans hget
      exact .inl ⟨kept, (Option.filter_eq_some_iff.1 hget).1, rfl⟩
  | watch idle every =>
      rw [perform, (startSweeper_frame _ idle every).1] at hget
      exact .inl ⟨kept, hget, rfl⟩
  | pass span => exact .inl ⟨kept, ((hsound.get?_pass span).1 hget).1, rfl⟩

/-- One more activity leaves a session there exactly if it does not remove the session and does not
sweep when the session is idle. -/
theorem stays_iff (hget : (after acts).store.get? id = some stored) :
    (∃ kept, Holds (acts ++ [act]) id stored.session.serial kept) ↔
      act ≠ .remove id ∧ ∀ idle time, Sweeps acts act idle time →
        SessionStore.isIdle stored time idle = false := by
  have hsound := sound_after acts
  unfold Holds
  rw [after_concat]
  have hmodified {other : String} {f : StoredSession → StoredSession}
      (hf : ∀ stored, (f stored).session.serial = stored.session.serial) :
      ∃ kept, ((after acts).store.modify other f).get? id = some kept ∧
        kept.session.serial = stored.session.serial := by
    rw [SessionStore.get?_modify]
    split
    · rename_i heq
      exact ⟨f stored, by rw [← heq, hget]; rfl, hf stored⟩
    · exact ⟨stored, hget, rfl⟩
  cases act with
  | create other =>
      refine iff_of_true ⟨stored, ?_, rfl⟩ ⟨nofun, nofun⟩
      rcases (after acts).store.getOrCreate_cases other (after acts).now with
        ⟨_, -, heq⟩ | ⟨hnone, heq⟩
      · rw [perform, heq]
        exact hget
      · have hne : id ≠ other := by
          rintro rfl
          rw [hget] at hnone
          cases hnone
        rw [perform, heq]
        exact (SessionStore.get?_put _ other _ id).trans ((if_neg hne).trans hget)
  | touch other | lock other | release other =>
      exact iff_of_true (hmodified fun _ => rfl) ⟨nofun, nofun⟩
  | remove other =>
      rw [perform, SessionStore.get?_remove]
      by_cases heq : id = other
      · rw [if_pos heq]
        exact iff_of_false (fun ⟨_, hnone, _⟩ => nomatch hnone) fun h => h.1 (heq ▸ rfl)
      · rw [if_neg heq]
        refine iff_of_true ⟨stored, hget, rfl⟩ ⟨fun h => heq ?_, nofun⟩
        cases h
        rfl
  | evict span =>
      rw [perform, hsound.tidy.get?_evictIdle, hget]
      simp only [Option.filter_eq_some_iff, Option.some.injEq, Sweeps]
      constructor
      · rintro ⟨kept, ⟨rfl, hspared⟩, -⟩
        refine ⟨nofun, ?_⟩
        rintro _ _ ⟨rfl, rfl⟩
        simpa using hspared
      · rintro ⟨-, hspared⟩
        exact ⟨stored, ⟨rfl, by simpa using hspared _ _ ⟨rfl, rfl⟩⟩, rfl⟩
  | watch idle every =>
      rw [perform, (startSweeper_frame _ idle every).1]
      exact iff_of_true ⟨stored, hget, rfl⟩ ⟨nofun, nofun⟩
  | pass span =>
      simp only [perform, hsound.get?_pass, hget, Option.some.injEq, hsound.ticks_iff]
      constructor
      · rintro ⟨kept, ⟨rfl, hspared⟩, -⟩
        refine ⟨nofun, ?_⟩
        rintro idle time ⟨⟨period, hpos, hdue⟩, hlate, htime⟩
        exact hspared ⟨idle, period, hpos⟩ time ⟨hdue, hlate⟩ htime
      · rintro ⟨-, hspared⟩
        refine ⟨stored, ⟨rfl, fun s time hticks htime => ?_⟩, rfl⟩
        exact hspared s.idle time ⟨⟨s.every, s.every_pos, hticks.1⟩, hticks.2, htime⟩

theorem nextSerial_le_concat (acts : List Activity) (act : Activity) :
    (after acts).store.nextSerial ≤ (after (acts ++ [act])).store.nextSerial := by
  rw [after_concat]
  cases act with
  | create id =>
      rcases (after acts).store.getOrCreate_cases id (after acts).now with
        ⟨_, -, heq⟩ | ⟨-, heq⟩
      · rw [perform, heq]
      · rw [perform, heq]
        exact Nat.le_succ _
  | touch id | lock id | release id => exact (SessionStore.nextSerial_modify _ id _).ge
  | remove id | evict idle => exact le_rfl
  | watch idle every => rw [perform, (startSweeper_frame _ idle every).1]
  | pass span => exact (nextSerial_lasting.advance (after acts) _).ge

theorem nextSerial_le_append (first rest : List Activity) :
    (after first).store.nextSerial ≤ (after (first ++ rest)).store.nextSerial := by
  induction rest using List.reverseRecOn with
  | nil => rw [List.append_nil]
  | append_singleton rest act ih =>
      rw [← List.append_assoc]
      exact ih.trans (nextSerial_le_concat _ act)

/-- A session that is there was there all the time since it got its serial number. -/
theorem holds_before (hserial : serial < (after first).store.nextSerial) {rest : List Activity}
    (h : Holds (first ++ rest) id serial kept) : ∃ stored, Holds first id serial stored := by
  induction rest using List.reverseRecOn generalizing kept with
  | nil => exact ⟨kept, by simpa using h⟩
  | append_singleton rest act ih =>
      rw [← List.append_assoc] at h
      rcases holds_concat h with ⟨stored, hstored⟩ | hnew
      · exact ih hstored
      · exact absurd (hserial.trans_le (nextSerial_le_append first rest)) (hnew ▸ lt_irrefl _)

/-- A session that is spared stays. -/
theorem holds_of_spared (hfirst : ∃ stored, Holds first id serial stored)
    (hspared : Spared first later id serial) :
    ∃ stored, Holds (first ++ later) id serial stored := by
  induction later using List.reverseRecOn with
  | nil => simpa using hfirst
  | append_singleton later act ih =>
      have hbefore : Spared first later id serial := by
        rintro mid other rest rfl
        exact hspared mid other (rest ++ [act]) (by simp)
      obtain ⟨stored, hget, rfl⟩ := ih hbefore
      obtain ⟨hact, hbusy⟩ := hspared later act [] rfl
      rw [← List.append_assoc]
      refine (stays_iff hget).2 ⟨hact, fun idle time hsweeps => ?_⟩
      refine (SessionStore.isIdle_eq_false_iff ?_).2 (hbusy idle time hsweeps stored ⟨hget, rfl⟩)
      -- a sweep takes place when the session was last active or later
      have hpast := ((sound_after (first ++ later)).dated id stored hget).2
      cases act with
      | evict span => exact hpast.trans_eq hsweeps.2.symm
      | pass span => exact hpast.trans hsweeps.2.1.le
      | create | touch | lock | release | remove | watch => exact hsweeps.elim

/-! ## Sweeps of a sweeper -/

theorem withinReach_le (t : Nanos) : t.withinReach ≤ t := by
  unfold Nanos.withinReach
  split
  · exact le_rfl
  · rename_i hfar
    exact le_trans (by decide) (not_lt.1 hfar)

theorem withinReach_pos {t : Nanos} (h : 0 < t) : 0 < t.withinReach := by
  unfold Nanos.withinReach
  split
  · exact h
  · decide

/-- The first multiple of a period after a time. -/
theorem next_multiple {start time period : Nat} (hpos : 0 < period) (hle : start ≤ time) :
    time < start + ((time - start) / period + 1) * period ∧
      start + ((time - start) / period + 1) * period ≤ time + period := by
  have hbelow := Nat.div_mul_le_self (time - start) period
  have habove := Nat.lt_div_mul_add hpos (a := time - start)
  rw [Nat.succ_mul]
  omega

/-- A sweeper that was started by some time sweeps at some time after that, but no more than one
period after. -/
theorem exists_due (hstarts : Starts acts idle every start) (hpos : 0 < every)
    (hle : start ≤ time) :
    ∃ tick, Due acts idle every.withinReach tick ∧ time < tick ∧ tick ≤ time + every := by
  obtain ⟨hlate, hsoon⟩ := next_multiple (withinReach_pos hpos) hle
  refine ⟨_, ⟨every, start, (time - start) / every.withinReach, hstarts, rfl, rfl⟩, hlate, ?_⟩
  exact hsoon.trans (Nat.add_le_add_left (withinReach_le every) time)

/-- A sweep that is due by the end of some activities takes place in one of them. -/
theorem exists_sweeps (hdue : Due (first ++ later) idle period time) (hpos : 0 < period)
    (hlate : (after first).now < time) (htime : time ≤ (after (first ++ later)).now) :
    ∃ mid act rest, later = mid ++ act :: rest ∧ Sweeps (first ++ mid) act idle time := by
  induction later using List.reverseRecOn with
  | nil => exact absurd hlate (not_lt_of_ge (by simpa using htime))
  | append_singleton later act ih =>
      rw [← List.append_assoc] at hdue htime
      by_cases hbefore : time ≤ (after (first ++ later)).now
      · rcases due_concat_iff.1 hdue with hold | ⟨_, n, -, -, rfl⟩
        · obtain ⟨mid, other, rest, rfl, hsweeps⟩ := ih hold hbefore
          exact ⟨mid, other, rest ++ [act], by simp, hsweeps⟩
        · -- a sweeper that is started now sweeps later
          have hpast : 0 < (n + 1) * period := Nat.mul_pos (Nat.succ_pos n) hpos
          exact absurd hbefore (not_le_of_gt (Nat.lt_add_of_pos_right hpast))
      · rw [after_concat] at htime
        refine ⟨later, act, [], rfl, ?_⟩
        cases act with
        | create | touch | lock | release | remove | evict => exact absurd htime hbefore
        | watch idle every =>
            rw [perform, (startSweeper_frame _ idle every).2] at htime
            exact absurd htime hbefore
        | pass span =>
            rw [perform, now_pass] at htime
            have hact : ∀ idle every, Activity.pass span ≠ .watch idle every := nofun
            exact ⟨⟨period, hpos, (due_concat_of_ne hact).1 hdue⟩, not_le.1 hbefore, htime⟩

/-- A session that is left alone is evicted within one period of a sweeper after it has been idle
for long enough. -/
theorem gone_of_leftAlone (hfirst : ∃ stored, Holds first id serial stored)
    (hstarts : Starts (first ++ later) idle every start) (hpos : 0 < every)
    (hstart : start ≤ (after first).now + idle) (halone : LeftAlone first later id serial)
    (hnow : (after first).now + idle + every ≤ (after (first ++ later)).now) :
    ¬ ∃ stored, Holds (first ++ later) id serial stored := by
  rintro ⟨kept, hkept⟩
  obtain ⟨stored, hget, rfl⟩ := hfirst
  obtain ⟨tick, hdue, hlate, htick⟩ := exists_due hstarts hpos hstart
  obtain ⟨mid, act, rest, rfl, hsweeps⟩ := exists_sweeps hdue (withinReach_pos hpos)
    ((Nat.le_add_right _ idle).trans_lt hlate) (htick.trans hnow)
  -- it was there before and after the sweep that should have found it idle
  have hgiven (more : List Activity) :
      stored.session.serial < (after (first ++ more)).store.nextSerial :=
    ((sound_after first).dated id stored hget).1.trans_le (nextSerial_le_append first more)
  have hsplit : first ++ (mid ++ act :: rest) = first ++ mid ++ [act] ++ rest := by simp
  rw [hsplit] at hkept
  obtain ⟨there, hthere⟩ := holds_before (by simpa using hgiven (mid ++ [act])) hkept
  obtain ⟨before, hbefore⟩ := holds_before (hgiven mid) hthere
  obtain ⟨hunlocked, hactive⟩ := halone mid (act :: rest) rfl before hbefore
  rw [← hbefore.2] at hthere
  have hspared := ((stays_iff hbefore.1).1 ⟨there, hthere⟩).2 idle tick hsweeps
  have hidle : SessionStore.isIdle before tick idle := by
    rw [SessionStore.isIdle, hunlocked]
    simpa using (Nat.add_le_add_right hactive idle).trans hlate.le
  rw [hidle] at hspared
  cases hspared

/-! ## Idle eviction -/

/-- After any activities a sweep evicts exactly the sessions that are unlocked and were last active
at least the given span ago, names each of them once and leaves the others as they are.  From then
on, whatever is done next, a session that is locked or was active recently at every sweep stays;
and once a sweeper is started no later than a session has been idle for its span, the session is
gone one period later, if it was left alone. -/
theorem idle_sessions_are_evicted (first : List Activity) :
    (∀ idle,
      let a := after first
      let swept := a.store.evictIdle a.now idle
      (∀ id, id ∈ swept.1 ↔ ∃ stored, a.store.get? id = some stored ∧ stored.locked = false ∧
        idle ≤ a.now - stored.session.lastActivity) ∧
      swept.1.Nodup ∧
      ∀ id, swept.2.get? id = if id ∈ swept.1 then none else a.store.get? id) ∧
    ∀ later id serial, (∃ stored, Holds first id serial stored) →
      (Spared first later id serial → ∃ stored, Holds (first ++ later) id serial stored) ∧
      ∀ idle every start, 0 < every → Starts (first ++ later) idle every start →
        start ≤ (after first).now + idle → LeftAlone first later id serial →
        (after first).now + idle + every ≤ (after (first ++ later)).now →
        ¬ ∃ stored, Holds (first ++ later) id serial stored := by
  refine ⟨fun idle => ?_, fun later id serial hfirst => ⟨fun hspared => ?_, ?_⟩⟩
  · intro a swept
    have hsound := sound_after first
    obtain ⟨hnamed, hnodup, hget⟩ := hsound.tidy.evictIdle_spec a.now idle
    refine ⟨fun id => (hnamed id).trans (exists_congr fun stored => ?_), hnodup, hget⟩
    refine and_congr_right fun hstored => ?_
    have hpast : stored.session.lastActivity ≤ a.now := (hsound.dated id stored hstored).2
    rw [← Bool.not_eq_false, SessionStore.isIdle_eq_false_iff hpast, not_or, Bool.not_eq_true,
      not_lt]
  · exact holds_of_spared hfirst hspared
  · intro idle every start hpos hstarts hstart halone hnow
    exact gone_of_leftAlone hfirst hstarts hpos hstart halone hnow

/-- Two sessions, one of which is locked. -/
def leftAndHeld : List Activity := [.create "left", .create "held", .lock "held"]

/-- A sweeper evicts what has been idle for ten nanoseconds, once in five. -/
def sixteenWatched : List Activity := [.watch 10 5, .pass 16]

theorem held_session_outlasts_left_one :
    (∃ stored, Holds leftAndHeld "left" 0 stored) ∧ (∃ stored, Holds leftAndHeld "held" 1 stored) ∧
      Starts (leftAndHeld ++ sixteenWatched) 10 5 0 ∧
      LeftAlone leftAndHeld sixteenWatched "left" 0 ∧
      (after leftAndHeld).now + 10 + 5 ≤ (after (leftAndHeld ++ sixteenWatched)).now ∧
      (¬ ∃ stored, Holds (leftAndHeld ++ sixteenWatched) "left" 0 stored) ∧
      Spared leftAndHeld sixteenWatched "held" 1 ∧
      ∃ stored, Holds (leftAndHeld ++ sixteenWatched) "held" 1 stored := by
  let watched : List Activity := leftAndHeld ++ [.watch 10 5]
  have hwatched : (after watched).store = (after leftAndHeld).store ∧ (after watched).now = 0 :=
    startSweeper_frame (after leftAndHeld) 10 5
  have hleft : (after leftAndHeld).store.get? "left" =
      some { session := { id := "left", serial := 0, lastActivity := 0 } } := rfl
  have hheld : (after leftAndHeld).store.get? "held" = some
      { session := { id := "held", serial := 1, lastActivity := 0 }, locked := true } := rfl
  have hstarts : Starts (leftAndHeld ++ sixteenWatched) 10 5 0 :=
    ⟨leftAndHeld, [.pass 16], rfl, rfl⟩
  -- the second sweep is due at ten
  have hgone : ¬ ∃ stored, Holds (watched ++ [.pass 16]) "left" 0 stored := by
    have hget := (congrArg (SessionStore.get? · "left") hwatched.1).trans hleft
    intro hkept
    have hsweeps : Sweeps watched (.pass 16) 10 10 :=
      ⟨⟨5, by decide, 5, 0, 1, ⟨leftAndHeld, [], rfl, rfl⟩, rfl, rfl⟩, by rw [hwatched.2]; decide⟩
    have hidle := ((stays_iff hget).1 hkept).2 10 10 hsweeps
    cases hidle
  have halone : LeftAlone leftAndHeld sixteenWatched "left" 0 := by
    rintro (_ | ⟨_, _ | ⟨_, _ | ⟨_, mid⟩⟩⟩) rest heq stored hstored <;> cases heq
    · cases hleft.symm.trans hstored.1
      exact ⟨rfl, le_rfl⟩
    · cases hleft.symm.trans (hwatched.1 ▸ hstored.1)
      exact ⟨rfl, le_rfl⟩
    · exact absurd ⟨stored, hstored⟩ hgone
  have hspared : Spared leftAndHeld sixteenWatched "held" 1 := by
    rintro (_ | ⟨_, _ | ⟨_, _ | ⟨_, mid⟩⟩⟩) act rest heq <;> cases heq
    · exact ⟨nofun, nofun⟩
    · refine ⟨nofun, fun _ _ _ stored hstored => .inl ?_⟩
      cases hheld.symm.trans (hwatched.1 ▸ hstored.1)
      rfl
  have hnow : (after leftAndHeld).now + 10 + 5 ≤
      (after (leftAndHeld ++ sixteenWatched)).now := by
    have hend : (after (leftAndHeld ++ sixteenWatched)).now = (after watched).now + 16 :=
      now_pass (after watched) 16
    rw [hend, hwatched.2]
    decide
  have hheldThere : ∃ stored, Holds leftAndHeld "held" 1 stored := ⟨_, hheld, rfl⟩
  have hleftThere : ∃ stored, Holds leftAndHeld "left" 0 stored := ⟨_, hleft, rfl⟩
  have hevicted := idle_sessions_are_evicted leftAndHeld
  exact ⟨hleftThere, hheldThere, hstarts, halone, hnow,
    (hevicted.2 _ _ _ hleftThere).2 10 5 0 (by decide) hstarts (by decide) halone hnow,
    hspared, (hevicted.2 _ _ _ hheldThere).1 hspared⟩

end Agenda
end Dialogue
