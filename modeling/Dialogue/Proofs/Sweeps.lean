import Dialogue.Proofs.Rooms
import Dialogue.Proofs.Schedule

/-!
# Sweeps on an agenda

An agenda that holds nothing but sweeps evicts sessions as time moves on.  It need not carry out
every sweep that is due: of those that follow each other undisturbed, the last one finds idle
whatever the ones before it would have found.  `Agenda.Ticks` speaks of all of them.

* `Agenda.get?_runUntil`: a session stays exactly if no sweep that is due meanwhile finds it idle.
* `Agenda.ticks_runUntil`: the sweeps that are due later are still to come.
-/

namespace Dialogue

/-! ## Idle sessions -/

namespace SessionStore

variable {stored : StoredSession} {now later idle : Nanos}

/-- A session is spared by a sweep if it is locked or was active less than a span ago. -/
theorem isIdle_eq_false_iff (h : stored.session.lastActivity ≤ now) :
    isIdle stored now idle = false ↔
      stored.locked = true ∨ now - stored.session.lastActivity < idle := by
  rw [isIdle, Bool.and_eq_false_iff, Bool.not_eq_false', decide_eq_false_iff_not]
  exact or_congr_right (not_le.trans (tsub_lt_iff_left h).symm)

/-- A session that is left alone stays idle. -/
theorem isIdle_mono (h : isIdle stored now idle) (hle : now ≤ later) :
    isIdle stored later idle := by
  rw [isIdle, Bool.and_eq_true_iff, decide_eq_true_iff] at h ⊢
  exact ⟨h.1, h.2.trans hle⟩

/-- An eviction removes the idle sessions, names each of them once, and leaves the others. -/
theorem Tidy.evictIdle_spec {s : SessionStore} (h : s.Tidy) (now idle : Nanos) :
    (∀ id, id ∈ (s.evictIdle now idle).1 ↔
      ∃ stored, s.get? id = some stored ∧ isIdle stored now idle) ∧
    (s.evictIdle now idle).1.Nodup ∧
    ∀ id, (s.evictIdle now idle).2.get? id =
      if id ∈ (s.evictIdle now idle).1 then none else s.get? id := by
  have hnamed (id : String) : id ∈ (s.evictIdle now idle).1 ↔
      ∃ stored, s.get? id = some stored ∧ isIdle stored now idle := by
    rw [SessionStore.evictIdle, List.mem_map]
    constructor
    · rintro ⟨⟨id, stored⟩, hentry, rfl⟩
      obtain ⟨hmem, hidle⟩ := List.mem_filter.1 hentry
      exact ⟨stored, Keyed.get?_of_mem h.ordered hmem, hidle⟩
    · rintro ⟨stored, hget, hidle⟩
      exact ⟨(id, stored), List.mem_filter.2 ⟨Keyed.mem_of_get? hget, hidle⟩, rfl⟩
  refine ⟨hnamed, ?_, fun id => ?_⟩
  · exact (Keyed.sorted_keys (Keyed.ordered_filter h.ordered _)).imp ne_of_lt
  · rw [h.get?_evictIdle]
    cases hget : s.get? id with
    | none => exact (ite_self none).symm
    | some stored =>
        by_cases hidle : isIdle stored now idle
        · rw [if_pos ((hnamed id).2 ⟨stored, hget, hidle⟩),
            Option.filter_some_neg (by simpa using hidle)]
        · have hkept : id ∉ (s.evictIdle now idle).1 := by
            intro hmem
            obtain ⟨found, hfound, hfoundIdle⟩ := (hnamed id).1 hmem
            rw [hget] at hfound
            cases hfound
            exact hidle hfoundIdle
          rw [if_neg hkept, Option.filter_some_pos (by simpa using hidle)]

end SessionStore

/-! ## Sweeps that are due -/

namespace Alarm

variable {alarm later other : Alarm}

/-- Of two alarms that take the place of the same one, one takes the place of the other. -/
theorem Leads.total (hlater : alarm.Leads later) (hother : alarm.Leads other) :
    later.Leads other ∨ other.Leads later := by
  refine Relation.ReflTransGen.total_of_right_unique ?_ hlater hother
  intro first next next' hnext hnext'
  exact Option.some.inj (hnext.symm.trans hnext')

/-- The alarms that take the place of a sweep are due any number of periods later. -/
theorem leads_sweep_iff {s t : Sweeper} {due time : Nanos} :
    Leads ⟨due, .sweep s⟩ ⟨time, .sweep t⟩ ↔ t = s ∧ ∃ n, time = due + n * s.every := by
  constructor
  · intro h
    have hsweep : ∀ {later : Alarm}, Leads ⟨due, .sweep s⟩ later →
        ∃ n, later = ⟨due + n * s.every, .sweep s⟩ := by
      intro later hleads
      induction hleads with
      | refl => exact ⟨0, by simp⟩
      | tail _ hnext ih =>
          obtain ⟨n, rfl⟩ := ih
          refine ⟨n + 1, ?_⟩
          rw [Nat.succ_mul, ← Nat.add_assoc]
          exact (Option.some.inj hnext).symm
    obtain ⟨n, heq⟩ := hsweep h
    cases heq
    exact ⟨rfl, n, rfl⟩
  · rintro ⟨rfl, n, rfl⟩
    exact leads_periods t due n

theorem mem_followed_of_mem {alarms : List Alarm} (h : other ∈ alarms) :
    other ∈ alarm.followed alarms := by
  unfold followed
  split
  · exact h
  · exact mem_insertInto.2 (.inr h)

theorem mem_followed_of_next? {alarms : List Alarm} (h : alarm.next? = some other) :
    other ∈ alarm.followed alarms := by
  simp only [followed, h]
  exact mem_insertInto.2 (.inl rfl)

end Alarm

namespace Agenda

/-- A sweep is due at a time: the next one of its sweeper, or one that follows it. -/
def Ticks (a : Agenda) (s : Sweeper) (time : Nanos) : Prop :=
  ∃ first ∈ a.alarms, first.Leads ⟨time, .sweep s⟩

/-- Nothing but sweeps is on the agenda. -/
def OnlySweeps (a : Agenda) : Prop := a.Carries fun alarm => ∃ s, alarm.errand = .sweep s

variable {a : Agenda} {time : Nanos} {id : String} {found : StoredSession}

/-- A tick is one that was carried out with the first alarm, or one that is still to come. -/
theorem ticks_cons {first : Alarm} {rest : List Alarm} (halarms : a.alarms = first :: rest)
    (horizon : Nanos) {s : Sweeper} {tick : Nanos} (h : a.Ticks s tick) :
    (∃ other ∈ (first.latest horizon).followed rest, other.Leads ⟨tick, .sweep s⟩) ∨
      tick ≤ (first.latest horizon).due ∧ first.errand = .sweep s := by
  obtain ⟨alarm, halarm, hleads⟩ := h
  rw [halarms] at halarm
  rcases List.mem_cons.1 halarm with rfl | hrest
  · -- the tick comes after the alarm that was carried out, or not
    rcases (alarm.leads_latest horizon).total hleads with hlater | hearlier
    · rcases hlater.cases_head with heq | ⟨next, hnext, hlater⟩
      · exact .inr ⟨by rw [heq], hleads.errand_eq.symm⟩
      · exact .inl ⟨next, Alarm.mem_followed_of_next? hnext, hlater⟩
    · exact .inr ⟨hearlier.due_le, hleads.errand_eq.symm⟩
  · exact .inl ⟨alarm, Alarm.mem_followed_of_mem hrest, hleads⟩

theorem ticks_of_followed {first other : Alarm} {rest : List Alarm}
    (halarms : a.alarms = first :: rest) {horizon : Nanos} {s : Sweeper} {tick : Nanos}
    (hother : other ∈ (first.latest horizon).followed rest)
    (hleads : other.Leads ⟨tick, .sweep s⟩) : a.Ticks s tick := by
  rcases Alarm.next?_or_mem_of_followed hother with hnext | hrest
  · have hled := (first.leads_latest horizon).tail hnext
    exact ⟨first, halarms ▸ List.mem_cons_self, hled.trans hleads⟩
  · exact ⟨other, halarms ▸ List.mem_cons_of_mem first hrest, hleads⟩

theorem ticks_latest {first : Alarm} {rest : List Alarm} (halarms : a.alarms = first :: rest)
    (horizon : Nanos) {s : Sweeper} (hs : first.errand = .sweep s) :
    a.Ticks s (first.latest horizon).due := by
  refine ⟨first, halarms ▸ List.mem_cons_self, ?_⟩
  rw [← hs, ← (first.leads_latest horizon).errand_eq]
  exact first.leads_latest horizon

/-- As time moves on, the sweeps that are due later are still to come. -/
theorem ticks_runUntil (a : Agenda) (time : Nanos) (hsorted : Alarm.Sorted a.alarms)
    (hready : a.ready = []) (s : Sweeper) (tick : Nanos) :
    (a.runUntil time).Ticks s tick ↔ a.Ticks s tick ∧ time < tick := by
  constructor
  · rintro ⟨alarm, halarm, hleads⟩
    obtain ⟨first, hfirst, hled⟩ := leads_runUntil a time hready alarm halarm
    have hlate := asleep_runUntil a time hsorted alarm halarm
    exact ⟨⟨first, hfirst, hled.trans hleads⟩, hlate.trans_le hleads.due_le⟩
  · rintro ⟨hticks, hlate⟩
    fun_induction Agenda.runUntil a time with
    | case1 | case3 => exact hticks
    | case2 a first rest halarms hdue alarm _ ih =>
        rw [halarms] at hsorted
        refine ih (Alarm.sorted_followed (List.pairwise_cons.1 hsorted).2 alarm)
          ((plan_carryOut _ alarm).2.2.trans hready) ?_
        rcases ticks_cons halarms (horizon time rest) hticks with hlater | ⟨hearly, -⟩
        · exact hlater
        · have hlatest : alarm.due ≤ time := due_latest_horizon_le hdue rest
          exact absurd (hearly.trans hlatest) (not_le_of_gt hlate)

theorem tidy_carryOut (htidy : a.store.Tidy) {alarm : Alarm} {s : Sweeper}
    (herrand : alarm.errand = .sweep s) :
    (a.carryOut alarm).store = (a.store.evictIdle alarm.due s.idle).2 ∧
      (a.carryOut alarm).store.Tidy := by
  rw [carryOut, herrand]
  exact ⟨rfl, htidy.evictIdle _ _⟩

/-- As time moves on, a session stays exactly if no sweep that is due by then finds it idle. -/
theorem get?_runUntil (a : Agenda) (time : Nanos) (htidy : a.store.Tidy) (honly : a.OnlySweeps)
    (hsorted : Alarm.Sorted a.alarms) :
    (a.runUntil time).store.get? id = some found ↔
      a.store.get? id = some found ∧
        ∀ s tick, a.Ticks s tick → tick ≤ time → SessionStore.isIdle found tick s.idle = false := by
  fun_induction Agenda.runUntil a time with
  | case1 a hnone =>
      refine (and_iff_left ?_).symm
      rintro s tick ⟨first, hfirst, -⟩
      rw [hnone] at hfirst
      cases hfirst
  | case3 a first rest halarms hlate =>
      -- the first alarm comes too late, and with it all the others
      refine (and_iff_left ?_).symm
      rintro s tick ⟨alarm, halarm, hleads⟩ hdue
      rw [halarms] at halarm hsorted
      have hfirst : first.due ≤ alarm.due := by
        rcases List.mem_cons.1 halarm with rfl | hrest
        · exact le_rfl
        · exact (List.pairwise_cons.1 hsorted).1 alarm hrest
      exact absurd (hfirst.trans (hleads.due_le.trans hdue)) hlate
  | case2 a first rest halarms hdue alarm _ ih =>
      obtain ⟨s, hs⟩ := honly.alarms first (halarms ▸ List.mem_cons_self)
      have herrand : alarm.errand = .sweep s :=
        (first.leads_latest (horizon time rest)).errand_eq.trans hs
      have hcarried := honly.carryOut halarms (max a.now alarm.due) (horizon time rest)
      obtain ⟨hstore, htidied⟩ := tidy_carryOut (a := { a with now := max a.now alarm.due })
        htidy herrand
      have halarm : alarm.due ≤ time := due_latest_horizon_le hdue rest
      rw [halarms] at hsorted
      refine (ih htidied hcarried.2
        (Alarm.sorted_followed (List.pairwise_cons.1 hsorted).2 alarm)).trans ?_
      dsimp only
      rw [hstore, htidy.get?_evictIdle, Option.filter_eq_some_iff, and_assoc, Bool.not_eq_true']
      refine and_congr_right fun _ => ⟨?_, ?_⟩
      · rintro ⟨hspared, hlater⟩ t tick hticks htick
        rcases ticks_cons halarms (horizon time rest) hticks with hrest | ⟨hearly, ht⟩
        · exact hlater t tick hrest htick
        · -- what is idle at an earlier sweep is idle at the one that was carried out
          cases hs.symm.trans ht
          by_contra hidle
          have hidle := SessionStore.isIdle_mono (by simpa using hidle) hearly
          rw [hspared] at hidle
          cases hidle
      · intro hspared
        refine ⟨hspared s alarm.due (ticks_latest halarms _ hs) halarm, ?_⟩
        rintro t tick ⟨other, hother, hleads⟩ htick
        exact hspared t tick (ticks_of_followed halarms hother hleads) htick

end Agenda
end Dialogue
