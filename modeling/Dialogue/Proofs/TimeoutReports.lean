import Dialogue.Proofs.Timeouts

/-!
# Where timeouts are reported

A wait that ends by time is reported, either by its timer or by the event that finds it
overdue.  Whoever is told may turn to the session at once, so it matters whether the session is
locked at that moment.

A timer acts on a stored session only while it is not locked, and reports after that.  An event
takes its session out and locks it before it looks at the wait, and reports what it finds
overdue there and then, under the lock.  While the event is routed, timers of other sessions may
report, and none of its own.

* `Agenda.Reports`, `Context.Reports` — what is reported meanwhile is reported by timers, about
  sessions that are not at hand.
* `Engine.reported_on_arrival` — what an event reports before it is routed.
* `Engine.Reachable.overdue_of_underLock` — a report under a lock leads back to the event that
  found the wait of its own session overdue.

`Engine.reports_outside_lock` puts this together: in a run in which no event arrives after the
deadline of a wait and before its timer, every report is made outside the lock.  That there are
other runs is shown by `Engine.overdue_wait_is_reported_under_lock`.
-/

namespace Dialogue

/-! ## What timers report -/

namespace Agenda

variable {active : Option Session}

/-- New reports are made outside the lock, and not about the session at hand. -/
def Reports (active : Option Session) (before after : Agenda) : Prop :=
  before.Guarded active → after.Guarded active ∧
    ∃ reports, after.notices = before.notices ++ reports ∧
      ∀ notice ∈ reports, notice.underLock = false ∧
        ∀ s, active = some s → notice.sessionId ≠ s.id

/-- Where nothing is reported it is enough that the session at hand stays locked. -/
theorem reports_of_eq {before after : Agenda} (hguarded : before.Guarded active →
    after.Guarded active) (hnotices : after.notices = before.notices) :
    before.Reports active after := by
  intro h
  refine ⟨hguarded h, [], ?_, ?_⟩
  · rw [hnotices, List.append_nil]
  · rintro _ ⟨⟩

theorem Reports.trans {before between after : Agenda} (hfirst : before.Reports active between)
    (hsecond : between.Reports active after) : before.Reports active after := by
  intro h
  obtain ⟨hbetween, past, hpast, hoverPast⟩ := hfirst h
  obtain ⟨hafter, present, hpresent, hoverPresent⟩ := hsecond hbetween
  refine ⟨hafter, past ++ present, ?_, ?_⟩
  · rw [hpresent, hpast, List.append_assoc]
  · intro notice hnotice
    rcases List.mem_append.1 hnotice with hold | hnew
    · exact hoverPast notice hold
    · exact hoverPresent notice hnew

/-- A timer reports a wait of a session that is not locked before, and not locked after. -/
theorem fire_reports_unlocked (a : Agenda) (timer : InputTimer) :
    (a.fire timer).notices = a.notices ∨
    ∃ stored p, a.store.get? timer.sessionId = some stored ∧ stored.locked = false ∧
      (a.fire timer).store.get? timer.sessionId = some (relieved stored) ∧
      (relieved stored).locked = false ∧
      (a.fire timer).notices =
        a.notices ++ [{ sessionId := timer.sessionId, pending := p, underLock := false }] := by
  rcases a.fire_cases timer with hsame | ⟨_, -, -, hheld⟩ |
      ⟨stored, p, hget, hunlocked, -, -, -, hended⟩
  · left
    rw [hsame]
  · left
    rw [hheld]
  · right
    rw [hended]
    have hrelieved : (a.relieve timer.sessionId stored p).store.get? timer.sessionId =
        some (relieved stored) := Keyed.get?_put_self _ _ _
    exact ⟨stored, p, hget, hunlocked, hrelieved, hunlocked, rfl⟩

theorem reports_fire (a : Agenda) (timer : InputTimer) : a.Reports active (a.fire timer) := by
  intro h
  have hguarded := (accounts_fire a timer h).1
  rcases a.fire_reports_unlocked timer with hsame | ⟨stored, p, hget, hunlocked, -, -, hnotices⟩
  · exact reports_of_eq (fun _ => hguarded) hsame h
  · refine ⟨hguarded, _, hnotices, ?_⟩
    intro notice hnotice
    rw [List.mem_singleton.1 hnotice]
    -- the session at hand is locked, so the timer is not one of its own
    exact ⟨rfl, h.id_ne hget hunlocked⟩

theorem reporting : Agenda.Lasting (Reports active) where
  refl _ := reports_of_eq id rfl
  trans := .trans
  fire := reports_fire
  evict a now idle := reports_of_eq (fun h => (accounts_evict a now idle h).1) rfl
  plan _ _ _ _ _ := reports_of_eq (fun h => h.of_store_eq rfl) rfl

theorem notices_unlock (a : Agenda) (id : String) : (a.unlock id).notices = a.notices := by
  unfold Agenda.unlock
  rfl

theorem reports_release (a : Agenda) (id : String) : a.Reports none (a.release id) :=
  reporting.release
    (fun a id => reports_of_eq (fun h => (accounts_unlock a id h).1) (a.notices_unlock id)) a id

end Agenda

namespace Context

variable {σ : Type} {before between after : Context σ}

/-- What is reported while the session of a context is handled. -/
def Reports (before after : Context σ) : Prop :=
  after.session.id = before.session.id ∧
    before.agenda.Reports (some before.session) after.agenda

/-- Only the identifier of the session at hand matters. -/
theorem reports_congr {s t : Session} (hid : t.id = s.id) {before after : Agenda}
    (h : before.Reports (some t) after) : before.Reports (some s) after := by
  have hswap {a : Agenda} {s t : Session} (hid : t.id = s.id) (ha : a.Guarded (some s)) :
      a.Guarded (some t) := by
    obtain ⟨stored, hget, hlocked⟩ := ha.locked s rfl
    exact Agenda.guarded_of_get? ha.tidy (hid ▸ hget) hlocked
  intro hbefore
  obtain ⟨hafter, reports, hnotices, hreports⟩ := h (hswap hid hbefore)
  refine ⟨hswap hid.symm hafter, reports, hnotices, fun notice hnotice => ?_⟩
  obtain ⟨houtside, hother⟩ := hreports notice hnotice
  refine ⟨houtside, ?_⟩
  rintro _ ⟨⟩
  exact hid ▸ hother t rfl

theorem Reports.trans (hfirst : before.Reports between) (hsecond : between.Reports after) :
    before.Reports after :=
  ⟨hsecond.1.trans hfirst.1, hfirst.2.trans (reports_congr hfirst.1 hsecond.2)⟩

/-- Nothing is reported where the agenda is left alone, timers for later apart. -/
theorem reports_of_eq (hid : after.session.id = before.session.id)
    (hstore : after.agenda.store = before.agenda.store)
    (hnotices : after.agenda.notices = before.agenda.notices) : before.Reports after :=
  ⟨hid, Agenda.reports_of_eq (fun h => h.of_store_eq hstore) hnotices⟩

end Context

namespace Engine

variable {σ : Type} {e : Engine σ}

theorem reporting (e : Engine σ) : e.Lasting Context.Reports where
  framing :=
    { refl := fun _ => Context.reports_of_eq rfl rfl rfl
      trans := .trans
      locals := fun _ h => h
      action := fun _ h => h
      params := fun _ h => h }
  advances := by
    rintro before _ ⟨storage, effects, -, -, rfl⟩
    exact Context.reports_of_eq rfl rfl rfl
  effects _ := Context.reports_of_eq rfl rfl rfl
  belongings _ _ _ _ _ := Context.reports_of_eq rfl rfl rfl
  navigation _ _ _ := Context.reports_of_eq rfl rfl rfl
  arm ctx request := by
    simp only [Input.arm, Eval.on_update]
    cases request.timeout <;> exact Context.reports_of_eq rfl rfl rfl
  clear _ := Context.reports_of_eq rfl rfl rfl
  callback _ _ _ := Context.reports_of_eq rfl rfl rfl
  message _ _ _ := Context.reports_of_eq rfl rfl rfl
  call ctx _ span := ⟨rfl, Agenda.reporting.pause ctx.agenda span⟩

/-! ## What an event reports -/

/-- An event arrives after the deadline of the wait of its session, which is still pending. -/
def FindsOverdue (house : House σ) (event : Event) (p : PendingInput) : Prop :=
  ∃ stored, house.agenda.store.get? event.sessionId = some stored ∧
    stored.session.awaiting.pending = some p ∧ p.isDue house.agenda.now = true

/-- An event that finds nothing overdue reports nothing when it arrives. -/
theorem notices_received_of_not_overdue {house : House σ} {event : Event}
    (h : ∀ p, ¬FindsOverdue house event p) :
    (e.received house event).agenda.notices = house.agenda.notices := by
  unfold received endOverdue Awaiting.expireIfDue Awaiting.endIf
  cases hget : house.agenda.store.get? event.sessionId with
  | none => simp [touch, Session.touch, checkOut, SessionStore.getOrCreate, hget]
  | some stored =>
      cases hpending : stored.session.awaiting.pending with
      | none => simp [touch, Session.touch, checkOut, SessionStore.getOrCreate, hget, hpending]
      | some p =>
          have hearly : p.isDue house.agenda.now = false := by
            by_contra hdue
            exact h p ⟨stored, hget, hpending, by simpa using hdue⟩
          simp [touch, Session.touch, checkOut, SessionStore.getOrCreate, hget, hpending, hearly]

/-- An event reports the wait that it finds overdue when it arrives, and nothing else. -/
theorem reported_on_arrival {house : House σ} (htidy : house.agenda.store.Tidy) (event : Event) :
    (∀ p, ¬FindsOverdue house event p) ∧
        (e.received house event).agenda.notices = house.agenda.notices ∨
    ∃ p, FindsOverdue house event p ∧ (e.received house event).agenda.notices =
        house.agenda.notices ++
          [{ sessionId := event.sessionId, pending := p, underLock := true }] := by
  by_cases hoverdue : ∃ p, FindsOverdue house event p
  · obtain ⟨p, stored, hget, hpending, hdue⟩ := hoverdue
    right
    exact ⟨p, ⟨stored, hget, hpending, hdue⟩,
      (received_of_isDue htidy event hget hpending hdue).2.1⟩
  · left
    push Not at hoverdue
    exact ⟨hoverdue, notices_received_of_not_overdue hoverdue⟩

/-- What is reported while an event is routed, and when its session is released. -/
theorem reported_after_arrival (builtIn : e.BuiltIn) (bound : Nat) {house : House σ}
    (htidy : house.agenda.store.Tidy) (event : Event) :
    ∃ during after,
      (e.routed bound house event).agenda.notices =
        (e.received house event).agenda.notices ++ during ∧
      (∀ notice ∈ during, notice.underLock = false ∧ notice.sessionId ≠ event.sessionId) ∧
      (e.handle bound house event).2.agenda.notices =
        (e.routed bound house event).agenda.notices ++ after ∧
      ∀ notice ∈ after, notice.underLock = false := by
  obtain ⟨hguarded, hid⟩ := e.guarded_received htidy event
  obtain ⟨hsame, hreports⟩ := e.reporting.route builtIn bound event.payload
    (e.checkOut house event.sessionId).2 (e.received house event)
  obtain ⟨hrouted, during, hduring, hother⟩ := hreports hguarded
  -- the session is put back under its lock, which is then released
  have hstowed : (e.stowed bound house event).Guarded none := ⟨hrouted.tidy.put rfl, by simp⟩
  obtain ⟨-, after, hafter, hfree⟩ :=
    Agenda.reports_release _ (e.routed bound house event).session.id hstowed
  refine ⟨during, after, hduring, fun notice hnotice => ?_, ?_, fun notice hnotice => ?_⟩
  · obtain ⟨hunlocked, hne⟩ := hother notice hnotice
    exact ⟨hunlocked, hid ▸ hne _ rfl⟩
  · rw [agenda_handle]
    exact hafter
  · exact (hfree notice hnotice).1

/-- A step reports outside the lock, or it is an event that finds the wait of its own session
overdue and reports that. -/
theorem reported_by_step (builtIn : e.BuiltIn) {house later : House σ}
    (htidy : house.agenda.store.Tidy) (hstep : e.Step house later) {notice : TimeoutNotice}
    (hnotice : notice ∈ later.agenda.notices) (hlock : notice.underLock = true) :
    notice ∈ house.agenda.notices ∨ ∃ bound event p, FindsOverdue house event p ∧
      notice = { sessionId := event.sessionId, pending := p, underLock := true } ∧
      later = (e.handle bound house event).2 := by
  have hquiet {a : Agenda} (hreports : house.agenda.Reports none a)
      (hmem : notice ∈ a.notices) : notice ∈ house.agenda.notices := by
    obtain ⟨-, reports, heq, hfree⟩ := hreports ⟨htidy, by simp⟩
    rw [heq] at hmem
    rcases List.mem_append.1 hmem with hold | hnew
    · exact hold
    · rw [(hfree notice hnew).1] at hlock
      cases hlock
  cases hstep with
  | event bound house event =>
      obtain ⟨during, after, hduring, hunlocked, hafter, hfree⟩ :=
        reported_after_arrival builtIn bound htidy event
      have harrived : notice ∈ (e.received house event).agenda.notices := by
        rw [hafter, hduring, List.append_assoc] at hnotice
        rcases List.mem_append.1 hnotice with hold | hnew
        · exact hold
        · rcases List.mem_append.1 hnew with hmem | hmem
          · rw [(hunlocked notice hmem).1] at hlock
            cases hlock
          · rw [hfree notice hmem] at hlock
            cases hlock
      rcases e.reported_on_arrival htidy event with ⟨-, hsame⟩ | ⟨p, hoverdue, hreported⟩
      · left
        rwa [hsame] at harrived
      · rw [hreported] at harrived
        rcases List.mem_append.1 harrived with hold | hnew
        · exact .inl hold
        · exact .inr ⟨bound, event, p, hoverdue, List.mem_singleton.1 hnew, rfl⟩
  | advance house time => exact .inl (hquiet (Agenda.reporting.advance _ time) hnotice)
  | evict house idle => exact .inl hnotice
  | remove house sessionId => exact .inl hnotice
  | watch house => exact .inl (hquiet (Agenda.reporting.startSweeper _ _ _) hnotice)
  | outside house outside => exact .inl hnotice

/-- Every report under a lock was made by an event of the run that found the wait of its own
session overdue. -/
theorem Reachable.overdue_of_underLock (builtIn : e.BuiltIn) {house : House σ}
    (h : e.Reachable house) {notice : TimeoutNotice} (hnotice : notice ∈ house.agenda.notices)
    (hlock : notice.underLock = true) :
    ∃ earlier bound event p, e.Reachable earlier ∧ FindsOverdue earlier event p ∧
      notice = { sessionId := event.sessionId, pending := p, underLock := true } ∧
      e.Reaches (e.handle bound earlier event).2 house := by
  obtain ⟨outside, hreaches⟩ := h
  induction hreaches with
  | refl => cases hnotice
  | tail hpast hlast ih =>
      have hearlier : e.Reachable _ := ⟨outside, hpast⟩
      have htidy := (hearlier.chronicle builtIn).1
      rcases reported_by_step builtIn htidy hlast hnotice hlock with
        hold | ⟨bound, event, p, hoverdue, heq, rfl⟩
      · obtain ⟨earlier, bound, event, p, hreachable, hoverdue, heq, hreaches⟩ := ih hold
        exact ⟨earlier, bound, event, p, hreachable, hoverdue, heq, hreaches.tail hlast⟩
      · exact ⟨_, bound, event, p, hearlier, hoverdue, heq, .refl⟩

/-! ## All reports of a run -/

/-- Where timeouts are reported: outside the lock of their session, unless an event of the
session finds its wait overdue. -/
structure ReportsOutsideLock (e : Engine σ) : Prop where
  /-- A timer that reports a wait finds the session unlocked and leaves it so. -/
  timer : ∀ (a : Agenda) (timer : InputTimer), (a.fire timer).notices = a.notices ∨
    ∃ stored p, a.store.get? timer.sessionId = some stored ∧ stored.locked = false ∧
      (a.fire timer).store.get? timer.sessionId = some (Agenda.relieved stored) ∧
      (Agenda.relieved stored).locked = false ∧
      (a.fire timer).notices =
        a.notices ++ [{ sessionId := timer.sessionId, pending := p, underLock := false }]
  /-- An event locks its session, and then reports the wait that it finds overdue, and nothing
  if it finds none. -/
  arrival : ∀ house, e.Reachable house → ∀ event,
    (∃ stored, (e.received house event).agenda.store.get? event.sessionId = some stored ∧
      stored.locked = true) ∧
    ((∀ p, ¬FindsOverdue house event p) ∧
        (e.received house event).agenda.notices = house.agenda.notices ∨
      ∃ p, FindsOverdue house event p ∧ (e.received house event).agenda.notices =
        house.agenda.notices ++
          [{ sessionId := event.sessionId, pending := p, underLock := true }])
  /-- While the event is routed only timers of other sessions report, and when its session is
  released only timers report. -/
  handling : ∀ house, e.Reachable house → ∀ bound event, ∃ during after,
    (e.routed bound house event).agenda.notices =
      (e.received house event).agenda.notices ++ during ∧
    (∀ notice ∈ during, notice.underLock = false ∧ notice.sessionId ≠ event.sessionId) ∧
    (e.handle bound house event).2.agenda.notices =
      (e.routed bound house event).agenda.notices ++ after ∧
    ∀ notice ∈ after, notice.underLock = false
  /-- A run in which no event finds the wait of its session overdue reports everything outside
  the lock: what is reported under it leads back to such an event. -/
  run : ∀ house, e.Reachable house → ∀ notice ∈ house.agenda.notices, notice.underLock = true →
    ∃ earlier bound event p, e.Reachable earlier ∧ FindsOverdue earlier event p ∧
      notice = { sessionId := event.sessionId, pending := p, underLock := true } ∧
      e.Reaches (e.handle bound earlier event).2 house

/-- Timers report outside the lock of the session, at whatever time they fire.  Reports under
the lock are made by events that find the wait of their own session overdue, and by no other
part of a run. -/
theorem reports_outside_lock (builtIn : e.BuiltIn) : e.ReportsOutsideLock where
  timer := Agenda.fire_reports_unlocked
  arrival := by
    intro house hhouse event
    have htidy := (hhouse.chronicle builtIn).1
    obtain ⟨hguarded, hid⟩ := e.guarded_received htidy event
    constructor
    · rw [← hid]
      exact hguarded.locked _ rfl
    · exact e.reported_on_arrival htidy event
  handling := by
    intro house hhouse bound event
    exact reported_after_arrival builtIn bound (hhouse.chronicle builtIn).1 event
  run := by
    intro house hhouse notice hnotice hlock
    exact hhouse.overdue_of_underLock builtIn hnotice hlock

/-- A timer for the question reports it outside the lock.  An event that comes before any
deadline reports nothing before it is routed. -/
theorem question_times_out_unlocked :
    let e := solitary questioning
    let answer := Event.ofText "s" "Ada"
    e.BuiltIn ∧ e.Reachable asked ∧
      (∃ p, (asked.agenda.fire ⟨"s", 0, 1⟩).notices =
        asked.agenda.notices ++ [{ sessionId := "s", pending := p, underLock := false }]) ∧
      (e.received asked answer).agenda.notices = asked.agenda.notices := by
  intro e answer
  have builtIn : e.BuiltIn := solitary_builtIn questioning
  have hreachable : e.Reachable asked := (reachable_newHouse ()).step (.event 4 _ _)
  have houtside := reports_outside_lock builtIn
  have hfired : (asked.agenda.fire ⟨"s", 0, 1⟩).notices.length = 1 := by decide +kernel
  have hquiet : asked.agenda.notices.length = 0 := by decide +kernel
  have harrived : (e.received asked answer).agenda.notices.length = 0 := by decide +kernel
  refine ⟨builtIn, hreachable, ?_, ?_⟩
  · rcases houtside.timer asked.agenda ⟨"s", 0, 1⟩ with hsame | ⟨_, p, -, -, -, -, hreported⟩
    · rw [hsame, hquiet] at hfired
      cases hfired
    · exact ⟨p, hreported⟩
  · rcases (houtside.arrival asked hreachable answer).2 with ⟨-, hsame⟩ | ⟨p, -, hreported⟩
    · exact hsame
    · rw [hreported, List.length_append, hquiet] at harrived
      cases harrived

/-- An engine of a host that knows one more action: it makes the session wait for half a
millisecond. -/
def hurrying : Engine Unit :=
  { solitary { startActions := .object [("action", .string "Hurry")] } with
    actions :=
      { library := ActionLibrary.standard
        custom := [("Hurry", fun _ _ => Input.arm { key := "name", timeout := some 500000 })] } }

/-- After the start the session waits, and its timer sleeps until the first full millisecond. -/
def hurried : House Unit := (hurrying.start 4 (hurrying.newHouse ()) "s").2

/-- The deadline has passed, and the timer has not fired. -/
def belated : House Unit := { hurried with agenda := hurried.agenda.advance 700000 }

/-- The answer that comes in between ends the wait and reports it while its session is
locked. -/
theorem overdue_wait_is_reported_under_lock :
    let answer := Event.ofText "s" "Ada"
    let ctx := hurrying.received belated answer
    hurrying.Reachable belated ∧ ∃ notice stored,
      ctx.agenda.notices = belated.agenda.notices ++ [notice] ∧
      notice.sessionId = answer.sessionId ∧
      ctx.agenda.store.get? notice.sessionId = some stored ∧ stored.locked = true := by
  intro answer ctx
  have hreachable : hurrying.Reachable belated :=
    ((reachable_newHouse ()).step (.event 4 _ _)).step (.advance hurried 700000)
  have hquiet : belated.agenda.notices = [] := by
    have hlength : belated.agenda.notices.length = 0 := by decide +kernel
    exact List.length_eq_zero_iff.1 hlength
  have hreported : ctx.agenda.notices.map (fun notice => notice.sessionId) = ["s"] := by
    decide +kernel
  have hlocked : (ctx.agenda.store.get? "s").map (fun stored => stored.locked) = some true := by
    decide +kernel
  obtain ⟨notice, hnotices, hid⟩ := List.map_eq_singleton_iff.1 hreported
  obtain ⟨stored, hget, hlock⟩ := Option.map_eq_some_iff.1 hlocked
  refine ⟨hreachable, notice, stored, ?_, hid, ?_, hlock⟩
  · rw [hquiet, hnotices]
    rfl
  · rw [hid]
    exact hget

end Engine
end Dialogue
