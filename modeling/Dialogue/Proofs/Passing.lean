import Dialogue.Proofs.Rooms
import Dialogue.Proofs.Schedule

/-!
# What passes a session by

Time also passes for sessions that no event is handled for.  Then a record can change in two
ways only: a wait ends because the timer that was set for it falls due, and the record goes
because a sweep finds it idle.  `Agenda.Passing` says that nothing else became of a record since
some start; where no time has passed the record is the same (`Agenda.Passing.eq_of_le`).

`Agenda.Course` is what holds of an agenda on its way from the start, while one session is
handled: the records of all others are `Passing`, and no other session is locked or has a timer
held back.  As long as whatever is still to be carried out was planned at the start or is a
timer of that session (`Agenda.Expects`), everything that an agenda does keeps it, the release
of the session included.

`Agenda.AtRest` holds of an agenda between two events.  A course that starts at rest ends at
rest once the session is released.
-/

namespace Dialogue
namespace Agenda

/-- An alarm slept at the start, or takes the place of one that did, and is due later. -/
structure Plans (start : Agenda) (alarm : Alarm) : Prop where
  asleep : ∃ first ∈ start.alarms, first.Leads alarm
  later : start.now < alarm.due

/-- What became of a record until some time, if the session was left to itself. -/
inductive Passing (start : Agenda) (time : Nanos) (id : String) :
    Option StoredSession → Option StoredSession → Prop
  /-- Nothing. -/
  | same (record : Option StoredSession) : Passing start time id record record
  /-- The timer that was set for its wait slept at the start, and fell due. -/
  | timedOut {stored : StoredSession} {p : PendingInput} {alarm : Alarm}
      (hpending : stored.session.awaiting.pending = some p) (hasleep : alarm ∈ start.alarms)
      (herrand : alarm.errand = .endWait ⟨id, stored.session.serial, p.generation⟩)
      (hlater : start.now < alarm.due) (hdue : alarm.due ≤ time) :
      Passing start time id (some stored) (some (relieved stored))
  /-- A sweep that was planned at the start fell due, and found the session idle. -/
  | evicted {stored : StoredSession} {alarm : Alarm} {s : Sweeper} (hplans : start.Plans alarm)
      (herrand : alarm.errand = .sweep s)
      (hidle : SessionStore.isIdle stored alarm.due s.idle = true) (hdue : alarm.due ≤ time) :
      Passing start time id (some stored) none

/-- An alarm was planned at the start, or is a timer of the session that is handled. -/
def Expects (start : Agenda) (own : Option String) (alarm : Alarm) : Prop :=
  start.Plans alarm ∨ ∃ timer, alarm.errand = .endWait timer ∧ own = some timer.sessionId

/-- An agenda on its way from a start, while the session `own` is handled and locked.  Once it
is released, `lock` is none. -/
structure Course (start : Agenda) (own lock : Option String) (a : Agenda) : Prop where
  tidy : a.store.Tidy
  locked : ∀ id stored, a.store.get? id = some stored → stored.locked = true → lock = some id
  heldBack : ∀ timer ∈ a.heldBack, lock = some timer.sessionId
  records : ∀ id, own ≠ some id →
    start.Passing a.now id (start.store.get? id) (a.store.get? id)

variable {start a : Agenda} {own lock : Option String} {time : Nanos} {id : String}
  {before after : Option StoredSession} {alarm : Alarm}

/-- A timer that was planned at the start slept then; no other alarm took its place. -/
theorem Plans.mem_alarms (h : start.Plans alarm) {timer : InputTimer}
    (herrand : alarm.errand = .endWait timer) : alarm ∈ start.alarms := by
  obtain ⟨first, hfirst, hleads⟩ := h.asleep
  rw [hleads.errand_eq] at herrand
  rw [hleads.eq_of_timer herrand]
  exact hfirst

namespace Passing

theorem mono {later : Nanos} (h : start.Passing time id before after) (hle : time ≤ later) :
    start.Passing later id before after := by
  cases h with
  | same => exact .same _
  | timedOut hpending hasleep herrand hlater hdue =>
      exact .timedOut hpending hasleep herrand hlater (hdue.trans hle)
  | evicted hplans herrand hidle hdue => exact .evicted hplans herrand hidle (hdue.trans hle)

/-- Where no time has passed the record is the same. -/
theorem eq_of_le (h : start.Passing time id before after) (hle : time ≤ start.now) :
    after = before := by
  cases h with
  | same => rfl
  | timedOut _ _ _ hlater hdue => exact absurd (hdue.trans hle) (not_le_of_gt hlater)
  | evicted hplans _ _ hdue => exact absurd (hdue.trans hle) (not_le_of_gt hplans.later)

/-- A wait that is pending was pending at the start. -/
theorem timeOut {stored : StoredSession} {p : PendingInput}
    (h : start.Passing time id before (some stored))
    (hpending : stored.session.awaiting.pending = some p) (hplans : start.Plans alarm)
    (herrand : alarm.errand = .endWait ⟨id, stored.session.serial, p.generation⟩)
    (hdue : alarm.due ≤ time) : start.Passing time id before (some (relieved stored)) := by
  cases h with
  | same => exact .timedOut hpending (hplans.mem_alarms herrand) herrand hplans.later hdue
  | timedOut => cases hpending

/-- A session that is idle was idle at the start, or went on waiting until its time was over. -/
theorem evict {stored : StoredSession} {s : Sweeper}
    (h : start.Passing time id before (some stored)) (hplans : start.Plans alarm)
    (herrand : alarm.errand = .sweep s)
    (hidle : SessionStore.isIdle stored alarm.due s.idle = true) (hdue : alarm.due ≤ time) :
    start.Passing time id before none := by
  cases h with
  | same => exact .evicted hplans herrand hidle hdue
  | timedOut => exact .evicted hplans herrand hidle hdue

end Passing

theorem Expects.next {next : Alarm} (h : start.Expects own alarm)
    (hnext : alarm.next? = some next) : start.Expects own next := by
  rcases h with ⟨⟨first, hfirst, hleads⟩, hlater⟩ | ⟨timer, herrand, -⟩
  · exact .inl ⟨⟨first, hfirst, hleads.tail hnext⟩, hlater.trans (Alarm.due_lt_of_next? hnext)⟩
  · rw [Alarm.next?, herrand] at hnext
    cases hnext

namespace Course

/-- Time moves on, and what is to be carried out is arranged anew. -/
theorem plan (h : start.Course own lock a) {now : Nanos} (hnow : a.now ≤ now)
    (alarms ready : List Alarm) : start.Course own lock { a with now, alarms, ready } where
  tidy := h.tidy
  locked := h.locked
  heldBack := h.heldBack
  records id hid := (h.records id hid).mono hnow

/-- A timer ends a wait of its own session: the one that is handled, or one that is left to
itself. -/
theorem fire (h : start.Course own lock a) (timer : InputTimer)
    (htimer : own = some timer.sessionId ∨
      ∃ alarm, start.Plans alarm ∧ alarm.errand = .endWait timer ∧ alarm.due ≤ a.now) :
    start.Course own lock (a.fire timer) := by
  rcases a.fire_cases timer with hsame | ⟨stored, hget, hlocked, hheld⟩ |
      ⟨stored, p, hget, hunlocked, hserial, hpending, hgeneration, hended⟩
  · rw [hsame]
    exact h
  · rw [hheld]
    refine ⟨h.tidy, h.locked, fun other hother => ?_, h.records⟩
    rcases List.mem_append.1 hother with hold | hnew
    · exact h.heldBack other hold
    · rw [List.mem_singleton.1 hnew]
      exact h.locked _ stored hget hlocked
  · rw [hended]
    have hfound (other : String) :
        (a.relieve timer.sessionId stored p).store.get? other =
          if other = timer.sessionId then some (relieved stored) else a.store.get? other :=
      SessionStore.get?_put _ _ _ _
    have hid : stored.session.id = timer.sessionId := h.tidy.id_eq hget
    refine ⟨h.tidy.put hid, fun other found hother hlocked => ?_, h.heldBack,
      fun other hother => ?_⟩
    · rw [hfound] at hother
      split at hother
      · -- the session of the timer is not locked
        cases hother
        rw [relieved, hunlocked] at hlocked
        cases hlocked
      · exact h.locked other found hother hlocked
    · rw [hfound]
      split
      · rename_i heq
        subst heq
        obtain ⟨alarm, hplans, herrand, hdue⟩ := htimer.resolve_left hother
        have hpassing := h.records timer.sessionId hother
        rw [hget] at hpassing
        refine hpassing.timeOut hpending hplans ?_ hdue
        rw [herrand, hserial, hgeneration]
      · exact h.records other hother

/-- A sweep evicts idle sessions, of those that are left to themselves. -/
theorem evict (h : start.Course own lock a) {s : Sweeper} (hplans : start.Plans alarm)
    (herrand : alarm.errand = .sweep s) (hdue : alarm.due ≤ a.now) :
    start.Course own lock { a with store := (a.store.evictIdle alarm.due s.idle).2 } := by
  have hfound := h.tidy.get?_evictIdle alarm.due s.idle
  refine ⟨h.tidy.evictIdle _ _, fun id stored hid hlocked => ?_, h.heldBack, fun id hid => ?_⟩
  · rw [hfound] at hid
    exact h.locked id stored (Option.filter_eq_some_iff.1 hid).1 hlocked
  · have hpassing := h.records id hid
    dsimp only
    rw [hfound]
    cases hget : a.store.get? id with
    | none =>
        rw [hget] at hpassing
        exact hpassing
    | some stored =>
        rw [hget] at hpassing
        by_cases hidle : SessionStore.isIdle stored alarm.due s.idle
        · rw [Option.filter_some_neg (by simpa using hidle)]
          exact hpassing.evict hplans herrand hidle hdue
        · rw [Option.filter_some_pos (by simpa using hidle)]
          exact hpassing

theorem carryOut (h : start.Course own lock a) (halarm : start.Expects own alarm)
    (hdue : alarm.due ≤ a.now) : start.Course own lock (a.carryOut alarm) := by
  unfold Agenda.carryOut
  split
  · rename_i timer herrand
    apply h.fire timer
    rcases halarm with hplans | ⟨_, hown, hsession⟩
    · exact .inr ⟨alarm, hplans, herrand, hdue⟩
    · rw [herrand] at hown
      cases hown
      exact .inl hsession
  · rename_i s herrand
    rcases halarm with hplans | ⟨_, htimer, -⟩
    · exact h.evict hplans herrand hdue
    · rw [herrand] at htimer
      cases htimer

theorem start_alarm (h : start.Course own lock a) (halarm : start.Expects own alarm) :
    start.Course own lock (a.start alarm) := by
  unfold Agenda.start
  split
  · rename_i hdue
    exact (h.carryOut halarm hdue).plan le_rfl _ _
  · exact h.plan le_rfl _ _

section

variable (h : start.Course own lock a) (hexpects : a.Carries (start.Expects own))
include h hexpects

theorem settle : start.Course own lock a.settle :=
  List.foldlRecOn a.ready Agenda.start (h.plan le_rfl a.alarms []) fun _ hb alarm halarm =>
    hb.start_alarm (hexpects.ready alarm halarm)

theorem runUntil (time : Nanos) : start.Course own lock (a.runUntil time) := by
  fun_induction Agenda.runUntil a time with
  | case1 | case3 => exact h
  | case2 a first rest halarms hdue alarm _ ih =>
      obtain ⟨halarm, hleft⟩ := hexpects.carryOut halarms (max a.now alarm.due) _
      -- the clock shows when the alarm is due, then it is carried out
      have hclock := h.plan (le_max_left a.now alarm.due) a.alarms a.ready
      have hcarried := hclock.carryOut halarm (le_max_right _ _)
      exact ih (hcarried.plan le_rfl _ _) hleft

theorem advance (time : Nanos) : start.Course own lock (a.advance time) :=
  ((h.settle hexpects).runUntil hexpects.settle time).plan (le_max_left _ _) _ _

theorem pause (span : Nanos) : start.Course own lock (a.pause span) := by
  unfold Agenda.pause
  split
  · exact h
  · have hrun := (h.settle hexpects).runUntil hexpects.settle (a.now + span - 1)
    have hnow := now_runUntil_le a.settle (a.now + span - 1)
    rw [now_settle] at hnow
    refine hrun.plan (hnow.trans (max_le ?_ ?_)) _ _
    · exact Nat.le_add_right _ _
    · exact Nat.sub_le _ _

end

/-- The session that is handled is stored, whatever became of it. -/
theorem put (h : start.Course own lock a) {stored : StoredSession} (hown : own = some id)
    (hid : stored.session.id = id) (hlocked : stored.locked = true → lock = some id) :
    start.Course own lock { a with store := a.store.put id stored } := by
  refine ⟨h.tidy.put hid, fun other found hother hlock => ?_, h.heldBack, fun other hother => ?_⟩
  · dsimp only at hother
    rw [SessionStore.get?_put] at hother
    split at hother
    · rename_i heq
      cases hother
      rw [heq]
      exact hlocked hlock
    · exact h.locked other found hother hlock
  · dsimp only
    rw [SessionStore.get?_put, if_neg fun heq => hother (hown.trans (congrArg some heq.symm))]
    exact h.records other hother

/-- The session that is handled gives its lock away; nothing is held back any longer. -/
theorem unlock (h : start.Course (some id) (some id) a) :
    start.Course (some id) none { a.unlock id with heldBack := [] } := by
  -- only this session can be locked, so after this none is
  unfold Agenda.unlock SessionStore.modify
  dsimp only
  split
  · rename_i stored hget
    have hid : stored.session.id = id := h.tidy.id_eq hget
    let unlocked : StoredSession := { stored with locked := false }
    have hput : start.Course (some id) (some id) { a with store := a.store.put id unlocked } :=
      h.put rfl hid nofun
    refine ⟨hput.tidy, fun other found hother hlocked => ?_, nofun, hput.records⟩
    cases hput.locked other found hother hlocked
    dsimp only at hother
    rw [SessionStore.get?_put, if_pos rfl] at hother
    cases hother
    cases hlocked
  · rename_i hnone
    refine ⟨h.tidy, fun other found hother hlocked => ?_, nofun, h.records⟩
    cases h.locked other found hother hlocked
    rw [hnone] at hother
    cases hother

theorem release (h : start.Course (some id) (some id) a)
    (hexpects : a.Carries (start.Expects (some id))) :
    start.Course (some id) none (a.release id) := by
  unfold Agenda.release
  split
  · rename_i hempty
    have hnone : a.heldBack = [] := List.isEmpty_iff.1 hempty
    have hunlocked := h.unlock.settle (hexpects.of_eq rfl rfl)
    rwa [← hnone] at hunlocked
  · -- the timers that were held back are those of the session
    have hsettled := h.settle hexpects
    exact List.foldlRecOn _ Agenda.fire hsettled.unlock fun _ hb timer htimer =>
      hb.fire timer (.inl (hsettled.heldBack timer htimer))

end Course

/-! ## Between events -/

/-- No session is locked, and all that is to be carried out sleeps. -/
structure AtRest (a : Agenda) : Prop where
  tidy : a.store.Tidy
  timely : a.Timely
  unlocked : ∀ id stored, a.store.get? id = some stored → stored.locked = false
  ready : a.ready = []
  heldBack : a.heldBack = []

namespace AtRest

/-- Before anything has happened. -/
theorem empty : ({} : Agenda).AtRest where
  tidy := ⟨.nil, List.forall_mem_nil _⟩
  timely := ⟨.nil, List.forall_mem_nil _, List.forall_mem_nil _⟩
  unlocked := by
    intro id stored hget
    rw [SessionStore.get?, Keyed.get?_nil] at hget
    cases hget
  ready := rfl
  heldBack := rfl

/-- A course may start with an agenda at rest. -/
theorem course (h : a.AtRest) (own lock : Option String) : a.Course own lock a where
  tidy := h.tidy
  locked id stored hget hlocked := by
    rw [h.unlocked id stored hget] at hlocked
    cases hlocked
  heldBack := by
    rw [h.heldBack]
    rintro _ ⟨⟩
  records _ _ := .same _

theorem expects (h : a.AtRest) (own : Option String) : a.Carries (a.Expects own) where
  next := Expects.next
  alarms alarm halarm := .inl ⟨⟨alarm, halarm, .refl⟩, h.timely.asleep alarm halarm⟩
  ready := by
    rw [h.ready]
    rintro _ ⟨⟩

/-- A course that ends with no session locked and nothing ready ends at rest. -/
theorem of_course (h : start.Course own none a) (htimely : a.Timely) (hready : a.ready = []) :
    a.AtRest where
  tidy := h.tidy
  timely := htimely
  unlocked id stored hget := by
    by_contra hlocked
    cases h.locked id stored hget (by simpa using hlocked)
  ready := hready
  heldBack := List.eq_nil_iff_forall_not_mem.2 fun timer htimer =>
    nomatch h.heldBack timer htimer

theorem advance (h : a.AtRest) (time : Nanos) : (a.advance time).AtRest :=
  of_course ((h.course none none).advance (h.expects none) time) (h.timely.advance time)
    (a.ready_advance time)

/-- Sessions may go at any time. -/
theorem of_store (h : a.AtRest) {store : SessionStore} (htidy : store.Tidy)
    (hkept : ∀ id stored, store.get? id = some stored → a.store.get? id = some stored) :
    ({ a with store } : Agenda).AtRest :=
  ⟨htidy, h.timely.of_eq rfl rfl rfl,
    fun id stored hget => h.unlocked id stored (hkept id stored hget), h.ready, h.heldBack⟩

theorem evict (h : a.AtRest) (now idle : Nanos) :
    ({ a with store := (a.store.evictIdle now idle).2 } : Agenda).AtRest := by
  refine h.of_store (h.tidy.evictIdle now idle) fun id stored hget => ?_
  rw [h.tidy.get?_evictIdle] at hget
  exact (Option.filter_eq_some_iff.1 hget).1

theorem remove (h : a.AtRest) (id : String) :
    ({ a with store := a.store.remove id } : Agenda).AtRest := by
  refine h.of_store (h.tidy.remove id) fun other stored hget => ?_
  rw [SessionStore.get?_remove] at hget
  split at hget
  · cases hget
  · exact hget

/-- The first sweep is later. -/
theorem startSweeper (h : a.AtRest) (idle every : Nanos) : (a.startSweeper idle every).AtRest := by
  have htimely := h.timely.startSweeper idle every
  have hready := a.ready_startSweeper idle every
  have hkept : (a.startSweeper idle every).store = a.store ∧
      (a.startSweeper idle every).heldBack = a.heldBack := by
    unfold Agenda.startSweeper Agenda.start
    dsimp only
    split
    · rename_i hpos
      rw [if_neg (Nat.not_le_of_lt (Nat.lt_add_of_pos_right hpos))]
      exact ⟨rfl, rfl⟩
    · exact ⟨rfl, rfl⟩
  constructor
  · rw [hkept.1]
    exact h.tidy
  · exact htimely
  · rw [hkept.1]
    exact h.unlocked
  · rw [hready, h.ready]
  · rw [hkept.2, h.heldBack]

end AtRest
end Agenda
end Dialogue
