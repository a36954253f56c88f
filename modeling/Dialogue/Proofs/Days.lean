import Mathlib
import Dialogue.Calendar.Moment

/-!
# Days and their numbers

A date has a number, the days since the first of January 1970, and the number has the date back.
Both ways go through the months of all years, counted in one row: a month begins where the one
before it ends (`monthStart_succ`), so the number of a date tells its month and its day
(`Date.number_lt_iff`).  The way back first takes off whole periods of 400, 100, 4 and 1 years and
then whole months, and what it finds is a date with the number that it started from
(`Date.number_ofNumber`); by the first part there is no other one (`Date.ofNumber_number`).
-/

namespace Dialogue
namespace Calendar

/-! ## Years and months -/

theorem daysBeforeYear_succ (year : Int) :
    daysBeforeYear (year + 1) = daysBeforeYear year + daysInYear year := by
  simp only [daysBeforeYear, daysInYear, isLeap, Bool.and_eq_true, Bool.or_eq_true, beq_iff_eq,
    bne_iff_ne]
  split <;> omega

theorem daysBeforeMonth_succ (year : Int) {month : Nat} (h : 1 ≤ month) :
    daysBeforeMonth year (month + 1) =
      daysBeforeMonth year month + daysInMonth year month := by
  obtain ⟨earlier, rfl⟩ := Nat.exists_eq_add_of_le' h
  simp [daysBeforeMonth, List.range_succ]

theorem daysBeforeMonth_thirteen (year : Int) : daysBeforeMonth year 13 = daysInYear year := by
  cases hleap : isLeap year <;>
    simp [daysBeforeMonth, List.range_succ, daysInMonth, daysInYear, hleap]

theorem daysInMonth_pos (year : Int) (month : Nat) : 0 < daysInMonth year month := by
  unfold daysInMonth
  split
  · split <;> decide
  all_goals decide

theorem daysInMonth_le (year : Int) (month : Nat) : daysInMonth year month ≤ 31 := by
  unfold daysInMonth
  split
  · split <;> decide
  all_goals decide

/-- The number of days of a month, given by the months since the start of year 0. -/
def monthDays (index : Int) : Nat := daysInMonth (index / 12) ((index % 12).toNat + 1)

/-- The days from the start of year 1 to that of a month. -/
def monthStart (index : Int) : Int :=
  daysBeforeYear (index / 12) + daysBeforeMonth (index / 12) ((index % 12).toNat + 1)

/-- A month begins where the one before it ends. -/
theorem monthStart_succ (index : Int) :
    monthStart (index + 1) = monthStart index + monthDays index := by
  have hnext := daysBeforeMonth_succ (index / 12) (Nat.succ_pos (index % 12).toNat)
  by_cases hlast : index % 12 = 11
  · -- the month after December is the January of the next year
    have hyear : (index + 1) / 12 = index / 12 + 1 := by omega
    have hmonth : (index + 1) % 12 = 0 := by omega
    have hjanuary : daysBeforeMonth (index / 12 + 1) 1 = 0 := rfl
    have hwhole := daysBeforeMonth_thirteen (index / 12)
    have hsucc := daysBeforeYear_succ (index / 12)
    simp only [monthStart, monthDays, hyear, hmonth, hlast, Int.toNat_zero, hjanuary] at hnext ⊢
    simp at hnext ⊢
    omega
  · have hyear : (index + 1) / 12 = index / 12 := by omega
    have hmonth : ((index + 1) % 12).toNat = (index % 12).toNat + 1 := by omega
    simp only [monthStart, monthDays, hyear, hmonth, hnext]
    push_cast
    ring

theorem monthStart_strictMono : StrictMono monthStart := by
  refine strictMono_int_of_lt_succ fun index => ?_
  have := daysInMonth_pos (index / 12) ((index % 12).toNat + 1)
  rw [monthStart_succ, monthDays]
  omega

namespace Date

/-! ## The number of a date -/

/-- A day that the calendar has, whatever its year. -/
structure Exists (d : Date) : Prop where
  month_pos : 1 ≤ d.month
  month_le : d.month ≤ 12
  day_pos : 1 ≤ d.day
  day_le : d.day ≤ daysInMonth d.year d.month

theorem isValid_iff {d : Date} :
    d.isValid = true ↔ d.Exists ∧ leastYear ≤ d.year ∧ d.year ≤ greatestYear := by
  simp only [isValid, Bool.and_eq_true, decide_eq_true_eq]
  constructor
  · rintro ⟨⟨⟨⟨⟨hleast, hgreatest⟩, hmonth⟩, hmonth'⟩, hday⟩, hday'⟩
    exact ⟨⟨hmonth, hmonth', hday, hday'⟩, hleast, hgreatest⟩
  · rintro ⟨⟨hmonth, hmonth', hday, hday'⟩, hleast, hgreatest⟩
    exact ⟨⟨⟨⟨⟨hleast, hgreatest⟩, hmonth⟩, hmonth'⟩, hday⟩, hday'⟩

theorem ofCivil?_eq_some_iff {year : Int} {month day : Nat} {d : Date} :
    ofCivil? year month day = some d ↔ d = { year, month, day } ∧ d.isValid = true := by
  unfold ofCivil?
  dsimp only
  split
  · rename_i hvalid
    rw [Option.some_inj]
    constructor
    · rintro rfl
      exact ⟨rfl, hvalid⟩
    · exact fun h => h.1.symm
  · rename_i hvalid
    simp only [reduceCtorEq, false_iff, not_and]
    rintro rfl
    exact hvalid

theorem year_eq_of_monthIndex {d : Date} (h : d.Exists) : d.monthIndex / 12 = d.year := by
  have := h.month_pos
  have := h.month_le
  simp only [monthIndex]
  omega

theorem month_eq_of_monthIndex {d : Date} (h : d.Exists) :
    (d.monthIndex % 12).toNat + 1 = d.month := by
  have := h.month_pos
  have := h.month_le
  simp only [monthIndex]
  omega

theorem day_le_monthDays {d : Date} (h : d.Exists) : d.day ≤ monthDays d.monthIndex := by
  rw [monthDays, year_eq_of_monthIndex h, month_eq_of_monthIndex h]
  exact h.day_le

/-- A date is its month and its day. -/
theorem ext_monthIndex {a b : Date} (ha : a.Exists) (hb : b.Exists)
    (hmonth : a.monthIndex = b.monthIndex) (hday : a.day = b.day) : a = b := by
  have hyear := year_eq_of_monthIndex ha
  have hmonth' := month_eq_of_monthIndex ha
  rw [hmonth, year_eq_of_monthIndex hb] at hyear
  rw [hmonth, month_eq_of_monthIndex hb] at hmonth'
  cases a
  cases b
  simp_all

theorem number_eq {d : Date} (h : d.Exists) :
    d.number = monthStart d.monthIndex + d.day - 1 - epochDay := by
  rw [monthStart, year_eq_of_monthIndex h, month_eq_of_monthIndex h, number, dayOfYear]
  push_cast
  ring

/-- Dates of an earlier month come first, and those of one month are ordered by their days. -/
theorem number_lt_iff {a b : Date} (ha : a.Exists) (hb : b.Exists) :
    a.number < b.number ↔
      a.monthIndex < b.monthIndex ∨ a.monthIndex = b.monthIndex ∧ a.day < b.day := by
  have hadays := day_le_monthDays ha
  have hbdays := day_le_monthDays hb
  have hasucc := monthStart_succ a.monthIndex
  have hbsucc := monthStart_succ b.monthIndex
  have hapos := ha.day_pos
  have hbpos := hb.day_pos
  rw [number_eq ha, number_eq hb]
  rcases lt_trichotomy a.monthIndex b.monthIndex with hlt | heq | hgt
  · have := monthStart_strictMono.monotone (Int.add_one_le_iff.2 hlt)
    omega
  · rw [heq]
    omega
  · have := monthStart_strictMono.monotone (Int.add_one_le_iff.2 hgt)
    omega

theorem number_injective {a b : Date} (ha : a.Exists) (hb : b.Exists)
    (h : a.number = b.number) : a = b := by
  have hab := (number_lt_iff ha hb).not.1 h.not_lt
  have hba := (number_lt_iff hb ha).not.1 h.not_gt
  exact ext_monthIndex ha hb (by omega) (by omega)

/-! ## The date of a number -/

/-- Whole periods taken off leave the year of a day and the days of it that have passed. -/
theorem yearAndRest_spec (days : Int) :
    daysBeforeYear (yearAndRest days).1 + (yearAndRest days).2 = days ∧
      (yearAndRest days).2 < daysInYear (yearAndRest days).1 := by
  have hrest : 0 ≤ days % 146097 := Int.emod_nonneg _ (by decide)
  have hrest' : days % 146097 < 146097 := Int.emod_lt_of_pos _ (by decide)
  have hdays : days = 146097 * (days / 146097) + (days % 146097).toNat := by omega
  simp only [yearAndRest]
  generalize days / 146097 = period at *
  generalize hr : (days % 146097).toNat = r at *
  have hr' : r < 146097 := by omega
  generalize hcentury : min (r / 36524) 3 = century
  generalize hfour : (r - century * 36524) / 1461 = four
  generalize hone : min ((r - century * 36524) % 1461 / 365) 3 = one
  have hcentury' : century ≤ 3 ∧ century * 36524 ≤ r ∧
      (century < 3 → r < (century + 1) * 36524) := by omega
  have hfour' : four ≤ 24 := by omega
  have hone' : one ≤ 3 ∧ one * 365 ≤ (r - century * 36524) % 1461 := by omega
  simp only [daysBeforeYear, daysInYear, isLeap, Bool.and_eq_true, Bool.or_eq_true, beq_iff_eq,
    bne_iff_ne]
  have hyear4 : (400 * period + 100 * (century : Int) + 4 * (four : Int) + one + 1 - 1) / 4 =
      100 * period + 25 * century + four := by omega
  have hyear100 : (400 * period + 100 * (century : Int) + 4 * (four : Int) + one + 1 - 1) / 100 =
      4 * period + century := by omega
  have hyear400 : (400 * period + 100 * (century : Int) + 4 * (four : Int) + one + 1 - 1) / 400 =
      period := by omega
  rw [hyear4, hyear100, hyear400]
  refine ⟨by omega, ?_⟩
  split <;> omega

/-- Whole months taken off leave the month of a day and its place in it, unless the months that
are left do not hold the day. -/
theorem monthAndDay_spec (year : Int) {month rest count : Nat} (hmonth : 1 ≤ month)
    (h : daysBeforeMonth year month + rest < daysBeforeMonth year (month + count + 1)) :
    let found := monthAndDay year month rest count
    daysBeforeMonth year found.1 + found.2 = daysBeforeMonth year month + rest + 1 ∧
      month ≤ found.1 ∧ found.1 ≤ month + count ∧ 1 ≤ found.2 ∧
        found.2 ≤ daysInMonth year found.1 := by
  induction count generalizing month rest with
  | zero =>
      have hsucc := daysBeforeMonth_succ year hmonth
      simp only [monthAndDay]
      simp only [Nat.add_zero, hsucc] at h
      omega
  | succ count ih =>
      have hsucc := daysBeforeMonth_succ year hmonth
      simp only [monthAndDay]
      split
      · simp only
        omega
      · rename_i hnot
        have hlater := @ih (month + 1) (rest - daysInMonth year month) (by omega) (by
          rw [show month + 1 + count + 1 = month + (count + 1) + 1 by ring]
          omega)
        simp only at hlater ⊢
        omega

theorem exists_ofNumber (n : Int) : (ofNumber n).Exists := by
  obtain ⟨hsum, hrest⟩ := yearAndRest_spec (n + epochDay)
  have hmonths := @monthAndDay_spec (yearAndRest (n + epochDay)).1 1 (yearAndRest (n + epochDay)).2
    11 le_rfl (by
      rw [daysBeforeMonth_thirteen]
      exact (Nat.zero_add _).trans_lt hrest)
  simp only at hmonths
  exact ⟨hmonths.2.1, hmonths.2.2.1, hmonths.2.2.2.1, hmonths.2.2.2.2⟩

/-- The date of a number has that number. -/
@[simp] theorem number_ofNumber (n : Int) : (ofNumber n).number = n := by
  obtain ⟨hsum, hrest⟩ := yearAndRest_spec (n + epochDay)
  have hmonths := @monthAndDay_spec (yearAndRest (n + epochDay)).1 1 (yearAndRest (n + epochDay)).2
    11 le_rfl (by
      rw [daysBeforeMonth_thirteen]
      exact (Nat.zero_add _).trans_lt hrest)
  simp only at hmonths
  have hfirst : daysBeforeMonth (yearAndRest (n + epochDay)).1 1 = 0 := rfl
  simp only [ofNumber, ofPlace, number, dayOfYear]
  omega

/-- A date is the date of its number. -/
@[simp] theorem ofNumber_number {d : Date} (h : d.Exists) : ofNumber d.number = d :=
  number_injective (exists_ofNumber _) h (number_ofNumber _)

theorem ofNumber?_eq_some_iff {n : Int} {d : Date} :
    ofNumber? n = some d ↔ d.isValid = true ∧ d.number = n := by
  unfold ofNumber?
  dsimp only
  constructor
  · split
    · rintro ⟨rfl⟩
      exact ⟨‹_›, number_ofNumber n⟩
    · rintro ⟨⟩
  · rintro ⟨hvalid, rfl⟩
    rw [ofNumber_number (isValid_iff.1 hvalid).1, if_pos hvalid]

end Date
end Calendar
end Dialogue
