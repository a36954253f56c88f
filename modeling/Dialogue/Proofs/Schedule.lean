import Mathlib
import Dialogue.Session.Agenda

/-!
# Schedules

An agenda keeps its alarms in the order in which they are due.  Between two steps of a run every
alarm that sleeps is due later (`Agenda.Timely`), so nothing is carried out before time moves.

`Agenda.Timely` is kept by all that an agenda does.  For the moves of time this takes two facts:
`runUntil` leaves alarms that are due after its time (`Agenda.asleep_runUntil`), and what is made
ready is due at that very time (`Agenda.Timely.pause`).  Meanwhile time moves no further than it
is told to (`Agenda.now_runUntil_le`).

A sweep that was carried out leads to the next one.  `Alarm.Leads` follows an alarm to all those
that take its place, and `Agenda.Carries` says that whatever is on an agenda has some property
that passes on to them.
-/

namespace Dialogue

theorem Nanos.le_wholeMillis (t : Nanos) : t ≤ wholeMillis t := by
  have hround (n : Nat) : n ≤ (n + 999999) / 1000000 * 1000000 := by omega
  exact hround t

/-! ## Alarms -/

namespace Alarm

/-- Alarms in the order in which they are due. -/
def Sorted (alarms : List Alarm) : Prop := alarms.Pairwise fun a b => a.due ≤ b.due

/-- An alarm takes the place of another one after any number of sweeps. -/
def Leads : Alarm → Alarm → Prop := Relation.ReflTransGen fun alarm next => alarm.next? = some next

variable {alarm later other : Alarm} {alarms : List Alarm}

theorem Leads.due_le (h : alarm.Leads later) : alarm.due ≤ later.due := by
  induction h with
  | refl => exact Nat.le_refl _
  | tail _ hnext ih => exact Nat.le_trans ih (Nat.le_of_lt (due_lt_of_next? hnext))

theorem Leads.errand_eq (h : alarm.Leads later) : later.errand = alarm.errand := by
  induction h with
  | refl => rfl
  | tail _ hnext ih =>
      unfold next? at hnext
      split at hnext
      · cases hnext
      · cases hnext
        exact ih

/-- No other alarm takes the place of a timer. -/
theorem Leads.eq_of_timer (h : alarm.Leads later) {timer : InputTimer}
    (herrand : alarm.errand = .endWait timer) : later = alarm := by
  rcases h.cases_head with rfl | ⟨next, hnext, -⟩
  · rfl
  · rw [next?, herrand] at hnext
    cases hnext

/-- A sweep leads to those that are any number of periods later. -/
theorem leads_periods (s : Sweeper) (due : Nanos) (count : Nat) :
    Leads ⟨due, .sweep s⟩ ⟨due + count * s.every, .sweep s⟩ := by
  induction count with
  | zero =>
      rw [Nat.zero_mul, Nat.add_zero]
      exact .refl
  | succ count ih =>
      refine ih.tail ?_
      rw [Nat.succ_mul, ← Nat.add_assoc]
      rfl

theorem leads_latest (alarm : Alarm) (time : Nanos) : alarm.Leads (alarm.latest time) := by
  obtain ⟨due, errand⟩ := alarm
  cases errand with
  | endWait timer => exact .refl
  | sweep s => exact leads_periods s due _

theorem due_latest_le (alarm : Alarm) (time : Nanos) :
    (alarm.latest time).due ≤ max alarm.due time := by
  unfold latest
  split
  · exact Nat.le_max_left _ _
  · rename_i s _
    have hperiods := Nat.div_mul_le_self (time - alarm.due) s.every
    calc
      alarm.due + (time - alarm.due) / s.every * s.every
        ≤ alarm.due + (time - alarm.due) := Nat.add_le_add_left hperiods _
      _ = max alarm.due time := add_tsub_eq_max

theorem mem_insertInto : other ∈ alarm.insertInto alarms ↔ other = alarm ∨ other ∈ alarms := by
  induction alarms with
  | nil => simp [insertInto]
  | cons first rest ih =>
      rw [insertInto]
      split
      · simp only [List.mem_cons, ih]
        tauto
      · exact List.mem_cons

theorem sorted_insertInto (h : Sorted alarms) (alarm : Alarm) :
    Sorted (alarm.insertInto alarms) := by
  induction alarms with
  | nil => exact List.pairwise_singleton _ _
  | cons first rest ih =>
      obtain ⟨hfirst, hrest⟩ := List.pairwise_cons.1 h
      rw [insertInto]
      split
      · rename_i hle
        refine List.pairwise_cons.2 ⟨?_, ih hrest⟩
        intro other hother
        rcases mem_insertInto.1 hother with rfl | hmem
        · exact hle
        · exact hfirst other hmem
      · rename_i hlt
        -- the first of the others is due later, and so are all that follow it
        refine List.pairwise_cons.2 ⟨?_, h⟩
        intro other hother
        rcases List.mem_cons.1 hother with rfl | hmem
        · exact le_of_not_ge hlt
        · exact le_trans (le_of_not_ge hlt) (hfirst other hmem)

theorem next?_or_mem_of_followed (h : other ∈ alarm.followed alarms) :
    alarm.next? = some other ∨ other ∈ alarms := by
  unfold followed at h
  split at h
  · exact .inr h
  · rename_i next hnext
    rcases mem_insertInto.1 h with rfl | hmem
    · exact .inl hnext
    · exact .inr hmem

theorem sorted_followed (h : Sorted alarms) (alarm : Alarm) : Sorted (alarm.followed alarms) := by
  unfold followed
  split
  · exact h
  · exact sorted_insertInto h _

/-- Alarms are in order, so those that are due by some time are the first ones. -/
theorem lt_due_of_mem_dropWhile (h : Sorted alarms) {time : Nanos} :
    ∀ alarm ∈ alarms.dropWhile (fun alarm => alarm.due ≤ time), time < alarm.due := by
  induction alarms with
  | nil => rintro _ ⟨⟩
  | cons first rest ih =>
      obtain ⟨hfirst, hrest⟩ := List.pairwise_cons.1 h
      by_cases hdue : first.due ≤ time
      · rw [List.dropWhile_cons_of_pos (by simpa using hdue)]
        exact ih hrest
      · rw [List.dropWhile_cons_of_neg (by simpa using hdue)]
        intro alarm halarm
        rcases List.mem_cons.1 halarm with rfl | hmem
        · exact lt_of_not_ge hdue
        · exact lt_of_lt_of_le (lt_of_not_ge hdue) (hfirst alarm hmem)

end Alarm

/-! ## Agendas -/

namespace Agenda

/-- The alarms of an agenda are in order and due later, those that are ready not earlier. -/
structure Timely (a : Agenda) : Prop where
  sorted : Alarm.Sorted a.alarms
  asleep : ∀ alarm ∈ a.alarms, a.now < alarm.due
  ready : ∀ alarm ∈ a.ready, a.now ≤ alarm.due

variable {a b : Agenda}

theorem Timely.of_eq (h : a.Timely) (hnow : b.now = a.now) (halarms : b.alarms = a.alarms)
    (hready : b.ready = a.ready) : b.Timely := by
  constructor
  · rw [halarms]
    exact h.sorted
  · rw [halarms, hnow]
    exact h.asleep
  · rw [hready, hnow]
    exact h.ready

section Frame

variable (a) (timer : InputTimer) (alarm : Alarm) (items : List Alarm) (id : String)

/-- A timer changes neither time nor alarms. -/
theorem plan_fire : (a.fire timer).now = a.now ∧ (a.fire timer).alarms = a.alarms ∧
    (a.fire timer).ready = a.ready := by
  unfold Agenda.fire
  repeat' split
  all_goals exact ⟨rfl, rfl, rfl⟩

theorem plan_carryOut : (a.carryOut alarm).now = a.now ∧ (a.carryOut alarm).alarms = a.alarms ∧
    (a.carryOut alarm).ready = a.ready := by
  unfold Agenda.carryOut
  split
  · exact plan_fire a _
  · exact ⟨rfl, rfl, rfl⟩

@[simp] theorem now_start : (a.start alarm).now = a.now := by
  unfold Agenda.start
  split
  · exact (plan_carryOut a alarm).1
  · rfl

@[simp] theorem ready_start : (a.start alarm).ready = a.ready := by
  unfold Agenda.start
  split
  · exact (plan_carryOut a alarm).2.2
  · rfl

theorem plan_foldl_start : (items.foldl start a).now = a.now ∧
    (items.foldl start a).ready = a.ready := by
  refine List.foldlRecOn (motive := fun b => b.now = a.now ∧ b.ready = a.ready) items start
    ⟨rfl, rfl⟩ fun b hb alarm _ => ?_
  rw [now_start, ready_start]
  exact hb

@[simp] theorem now_settle : a.settle.now = a.now := (plan_foldl_start _ _).1

@[simp] theorem ready_settle : a.settle.ready = [] := (plan_foldl_start _ _).2

theorem plan_foldl_fire (timers : List InputTimer) :
    (timers.foldl fire a).now = a.now ∧ (timers.foldl fire a).alarms = a.alarms ∧
      (timers.foldl fire a).ready = a.ready := by
  refine List.foldlRecOn
    (motive := fun b => b.now = a.now ∧ b.alarms = a.alarms ∧ b.ready = a.ready) timers fire
    ⟨rfl, rfl, rfl⟩ fun b hb timer _ => ?_
  obtain ⟨hnow, halarms, hready⟩ := plan_fire b timer
  rw [hnow, halarms, hready]
  exact hb

theorem now_release : (a.release id).now = a.now := by
  unfold Agenda.release
  split
  · exact now_settle _
  · exact (plan_foldl_fire _ _).1.trans a.now_settle

theorem ready_release : (a.release id).ready = [] := by
  unfold Agenda.release
  split
  · exact ready_settle _
  · exact (plan_foldl_fire _ _).2.2.trans a.ready_settle

theorem ready_startSweeper (idle every : Nanos) : (a.startSweeper idle every).ready = a.ready := by
  unfold Agenda.startSweeper
  dsimp only
  split
  · exact ready_start _ _
  · rfl

@[simp] theorem now_pause (span : Nanos) : (a.pause span).now = a.now + span := by
  unfold Agenda.pause
  split
  · rename_i hzero
    rw [hzero]
    rfl
  · rfl

end Frame

/-! ### Moving time -/

theorem horizon_le (time : Nanos) (alarms : List Alarm) : horizon time alarms ≤ time := by
  cases alarms with
  | nil => exact Nat.le_refl _
  | cons next _ => exact Nat.min_le_left _ _

/-- An alarm that is due by some time is carried out by then. -/
theorem due_latest_horizon_le {alarm : Alarm} {time : Nanos} (h : alarm.due ≤ time)
    (rest : List Alarm) : (alarm.latest (horizon time rest)).due ≤ time := by
  have hlatest := alarm.due_latest_le (horizon time rest)
  exact le_trans hlatest (max_le h (horizon_le time rest))

theorem now_runUntil_le (a : Agenda) (time : Nanos) : (a.runUntil time).now ≤ max a.now time := by
  fun_induction Agenda.runUntil a time with
  | case1 | case3 => exact Nat.le_max_left _ _
  | case2 a first rest halarms hdue alarm _ ih =>
      have hcarried := (plan_carryOut { a with now := max a.now alarm.due } alarm).1
      have hlatest : alarm.due ≤ time := due_latest_horizon_le hdue rest
      refine ih.trans (max_le (hcarried.le.trans ?_) (le_max_right _ _))
      exact max_le_max_left a.now hlatest

@[simp] theorem ready_runUntil (a : Agenda) (time : Nanos) : (a.runUntil time).ready = a.ready := by
  fun_induction Agenda.runUntil a time with
  | case1 | case3 => rfl
  | case2 a first rest halarms hdue alarm _ ih =>
      exact ih.trans (plan_carryOut { a with now := max a.now alarm.due } alarm).2.2

theorem ready_advance (a : Agenda) (time : Nanos) : (a.advance time).ready = [] :=
  (ready_runUntil _ _).trans a.ready_settle

theorem sorted_runUntil (a : Agenda) (time : Nanos) (h : Alarm.Sorted a.alarms) :
    Alarm.Sorted (a.runUntil time).alarms := by
  fun_induction Agenda.runUntil a time with
  | case1 | case3 => exact h
  | case2 a first rest halarms hdue alarm _ ih =>
      rw [halarms] at h
      exact ih (Alarm.sorted_followed (List.pairwise_cons.1 h).2 alarm)

/-- What still sleeps is due later than the time that was run to. -/
theorem asleep_runUntil (a : Agenda) (time : Nanos) (h : Alarm.Sorted a.alarms) :
    ∀ alarm ∈ (a.runUntil time).alarms, time < alarm.due := by
  fun_induction Agenda.runUntil a time with
  | case1 a hnone =>
      rw [hnone]
      rintro _ ⟨⟩
  | case2 a first rest halarms hdue alarm _ ih =>
      rw [halarms] at h
      exact ih (Alarm.sorted_followed (List.pairwise_cons.1 h).2 alarm)
  | case3 a first rest halarms hlate =>
      rw [halarms] at h ⊢
      intro alarm halarm
      rcases List.mem_cons.1 halarm with rfl | hmem
      · exact lt_of_not_ge hlate
      · -- the first alarm is not due, and the others are due no earlier
        exact lt_of_lt_of_le (lt_of_not_ge hlate) ((List.pairwise_cons.1 h).1 alarm hmem)

/-! ### What is on an agenda -/

/-- Every alarm that sleeps or is ready has a property, which passes on to the alarms that take
its place. -/
structure Carries (E : Alarm → Prop) (a : Agenda) : Prop where
  next : ∀ {alarm next : Alarm}, E alarm → alarm.next? = some next → E next
  alarms : ∀ alarm ∈ a.alarms, E alarm
  ready : ∀ alarm ∈ a.ready, E alarm

namespace Carries

variable {E : Alarm → Prop}

theorem leads (h : a.Carries E) {alarm later : Alarm} (halarm : E alarm)
    (hleads : alarm.Leads later) : E later := by
  induction hleads with
  | refl => exact halarm
  | tail _ hnext ih => exact h.next ih hnext

/-- The agenda may be arranged anew. -/
theorem plan (h : a.Carries E) {b : Agenda} (halarms : ∀ alarm ∈ b.alarms, E alarm)
    (hready : ∀ alarm ∈ b.ready, E alarm) : b.Carries E := ⟨h.next, halarms, hready⟩

theorem of_eq (h : a.Carries E) {b : Agenda} (halarms : b.alarms = a.alarms)
    (hready : b.ready = a.ready) : b.Carries E :=
  h.plan (halarms ▸ h.alarms) (hready ▸ h.ready)

theorem followed (h : a.Carries E) {alarm : Alarm} (halarm : E alarm) {rest : List Alarm}
    (hrest : ∀ other ∈ rest, E other) : ∀ other ∈ alarm.followed rest, E other := by
  intro other hother
  rcases Alarm.next?_or_mem_of_followed hother with hnext | hmem
  · exact h.next halarm hnext
  · exact hrest other hmem

theorem start (h : a.Carries E) {alarm : Alarm} (halarm : E alarm) :
    (a.start alarm).Carries E := by
  have hready := ready_start a alarm
  unfold Agenda.start at hready ⊢
  split
  · rename_i hdue
    rw [if_pos hdue] at hready
    exact h.plan (h.followed halarm h.alarms) (hready ▸ h.ready)
  · refine h.plan (fun other hother => ?_) h.ready
    rcases Alarm.mem_insertInto.1 hother with rfl | hold
    · exact halarm
    · exact h.alarms other hold

theorem settle (h : a.Carries E) : a.settle.Carries E := by
  have hempty : ({ a with ready := [] } : Agenda).Carries E := h.plan h.alarms nofun
  exact List.foldlRecOn a.ready _ hempty fun b hb alarm halarm => hb.start (h.ready alarm halarm)

/-- The first alarm, or the last of its sweeps by some time, is carried out. -/
theorem carryOut (h : a.Carries E) {first : Alarm} {rest : List Alarm}
    (halarms : a.alarms = first :: rest) (now time : Nanos) :
    let alarm := first.latest time
    let b := ({ a with now } : Agenda).carryOut alarm
    E alarm ∧ ({ b with alarms := alarm.followed rest } : Agenda).Carries E := by
  intro alarm b
  have hold := h.alarms
  rw [halarms] at hold
  have halarm : E alarm := h.leads (hold first List.mem_cons_self) (first.leads_latest time)
  have hready : b.ready = a.ready := (plan_carryOut _ alarm).2.2
  refine ⟨halarm, h.plan ?_ ?_⟩
  · exact h.followed halarm fun other hother => hold other (List.mem_cons_of_mem first hother)
  · dsimp only
    rw [hready]
    exact h.ready

theorem runUntil (h : a.Carries E) (time : Nanos) : (a.runUntil time).Carries E := by
  fun_induction Agenda.runUntil a time with
  | case1 | case3 => exact h
  | case2 a first rest halarms hdue alarm _ ih => exact ih (h.carryOut halarms _ _).2

theorem pause (h : a.Carries E) (span : Nanos) : (a.pause span).Carries E := by
  unfold Agenda.pause
  split
  · exact h
  · have hrun := h.settle.runUntil (a.now + span - 1)
    refine hrun.plan (fun alarm halarm => ?_) fun alarm halarm => ?_
    · exact hrun.alarms alarm ((List.dropWhile_sublist _).subset halarm)
    · exact hrun.alarms alarm ((List.takeWhile_sublist _).subset halarm)

theorem advance (h : a.Carries E) (time : Nanos) : (a.advance time).Carries E :=
  (h.settle.runUntil time).of_eq rfl rfl

theorem schedule (h : a.Carries E) (timer : InputTimer) (timeout : Nanos)
    (htimer : E ⟨Nanos.wholeMillis (a.now + timeout.withinReach), .endWait timer⟩) :
    (a.schedule timer timeout).Carries E := by
  refine h.plan h.alarms fun alarm halarm => ?_
  rcases List.mem_append.1 halarm with hold | hnew
  · exact h.ready alarm hold
  · rw [List.mem_singleton.1 hnew]
    exact htimer

theorem release (h : a.Carries E) (id : String) : (a.release id).Carries E := by
  unfold Agenda.release
  split
  · have hunlocked : (a.unlock id).Carries E := h.of_eq rfl rfl
    exact hunlocked.settle
  · obtain ⟨-, halarms, hready⟩ := plan_foldl_fire
      { a.settle.unlock id with heldBack := [] } (a.settle.unlock id).heldBack
    exact h.settle.of_eq halarms hready

theorem startSweeper (h : a.Carries E) (hsweep : ∀ due s, E { due, errand := .sweep s })
    (idle every : Nanos) : (a.startSweeper idle every).Carries E := by
  unfold Agenda.startSweeper
  dsimp only
  split
  · exact h.start (hsweep _ _)
  · exact h

end Carries

/-- What sleeps after some time slept before, or takes the place of what did. -/
theorem leads_runUntil (a : Agenda) (time : Nanos) (hready : a.ready = []) :
    ∀ alarm ∈ (a.runUntil time).alarms, ∃ first ∈ a.alarms, first.Leads alarm := by
  have hcarries : a.Carries fun alarm => ∃ first ∈ a.alarms, first.Leads alarm := by
    refine ⟨?_, fun alarm halarm => ⟨alarm, halarm, .refl⟩, by simp [hready]⟩
    rintro _ _ ⟨first, hfirst, hleads⟩ hnext
    exact ⟨first, hfirst, hleads.tail hnext⟩
  exact (hcarries.runUntil time).alarms

/-! ### What is due -/

namespace Timely

theorem start (h : a.Timely) {alarm : Alarm} (hdue : a.now ≤ alarm.due) :
    (a.start alarm).Timely := by
  have hready : ∀ other ∈ (a.start alarm).ready, (a.start alarm).now ≤ other.due := by
    rw [ready_start, now_start]
    exact h.ready
  unfold Agenda.start at hready ⊢
  split at hready
  · rename_i hnow
    have hcarried := (plan_carryOut a alarm).1
    rw [if_pos hnow]
    refine ⟨Alarm.sorted_followed h.sorted alarm, ?_, hready⟩
    intro other hother
    dsimp only
    rw [hcarried]
    rcases Alarm.next?_or_mem_of_followed hother with hnext | hold
    · exact Nat.lt_of_le_of_lt hdue (Alarm.due_lt_of_next? hnext)
    · exact h.asleep other hold
  · rename_i hlate
    rw [if_neg hlate]
    refine ⟨Alarm.sorted_insertInto h.sorted alarm, ?_, hready⟩
    intro other hother
    rcases Alarm.mem_insertInto.1 hother with rfl | hold
    · exact Nat.lt_of_not_le hlate
    · exact h.asleep other hold

theorem settle (h : a.Timely) : a.settle.Timely := by
  have hempty : ({ a with ready := [] } : Agenda).Timely :=
    ⟨h.sorted, h.asleep, fun _ hmem => nomatch hmem⟩
  -- starting an alarm takes no time, so the others are not late
  have hsettled : a.settle.Timely ∧ a.settle.now = a.now := by
    refine List.foldlRecOn (motive := fun b => b.Timely ∧ b.now = a.now) a.ready Agenda.start
      ⟨hempty, rfl⟩ fun b hb alarm halarm => ?_
    refine ⟨hb.1.start ?_, (now_start b alarm).trans hb.2⟩
    rw [hb.2]
    exact h.ready alarm halarm
  exact hsettled.1

/-- Running to some time leaves what is due after that time and after now. -/
theorem lt_due_of_runUntil (h : a.Timely) (hready : a.ready = []) (time : Nanos) :
    ∀ alarm ∈ (a.runUntil time).alarms, max a.now time < alarm.due := by
  intro alarm halarm
  obtain ⟨first, hfirst, hleads⟩ := leads_runUntil a time hready alarm halarm
  have hnow := lt_of_lt_of_le (h.asleep first hfirst) hleads.due_le
  exact max_lt hnow (asleep_runUntil a time h.sorted alarm halarm)

theorem advance (h : a.Timely) (time : Nanos) : (a.advance time).Timely := by
  have hsettled := h.settle
  refine ⟨sorted_runUntil _ time hsettled.sorted, fun alarm halarm => ?_, fun alarm halarm => ?_⟩
  · have hnow := now_runUntil_le a.settle time
    have hlate := hsettled.lt_due_of_runUntil a.ready_settle time alarm halarm
    exact (max_le hnow (le_max_right _ _)).trans_lt hlate
  · rw [ready_advance] at halarm
    cases halarm

/-- What is due when the pause is over is made ready, all else is due later. -/
theorem pause (h : a.Timely) (span : Nanos) : (a.pause span).Timely := by
  unfold Agenda.pause
  split
  · exact h
  · have hsorted := sorted_runUntil a.settle (a.now + span - 1) h.settle.sorted
    refine ⟨hsorted.sublist (List.dropWhile_sublist _), ?_, fun alarm halarm => ?_⟩
    · exact Alarm.lt_due_of_mem_dropWhile hsorted
    · have hmem := (List.takeWhile_sublist _).subset halarm
      have hlate := asleep_runUntil a.settle (a.now + span - 1) h.settle.sorted alarm hmem
      exact Nat.le_of_pred_lt hlate

theorem schedule (h : a.Timely) (timer : InputTimer) (timeout : Nanos) :
    (a.schedule timer timeout).Timely := by
  refine ⟨h.sorted, h.asleep, fun alarm halarm => ?_⟩
  rcases List.mem_append.1 halarm with hold | hnew
  · exact h.ready alarm hold
  · rw [List.mem_singleton.1 hnew]
    exact (Nat.le_add_right _ _).trans (Nanos.le_wholeMillis _)

theorem release (h : a.Timely) (id : String) : (a.release id).Timely := by
  unfold Agenda.release
  split
  · have hunlocked : (a.unlock id).Timely := h.of_eq rfl rfl rfl
    exact hunlocked.settle
  · obtain ⟨hnow, halarms, hready⟩ := plan_foldl_fire
      { a.settle.unlock id with heldBack := [] } (a.settle.unlock id).heldBack
    exact h.settle.of_eq hnow halarms hready

theorem startSweeper (h : a.Timely) (idle every : Nanos) : (a.startSweeper idle every).Timely := by
  unfold Agenda.startSweeper
  dsimp only
  split
  · exact h.start (Nat.le_add_right _ _)
  · exact h

end Timely
end Agenda
end Dialogue
