import Mathlib
import Dialogue.Proofs.Moments

/-!
# Counting months

The months from a start to a goal are counted by the names of their months, and the count is
corrected by one if the start, moved by so many months, lies beyond the goal.  A moved moment lies
in the month that its count names, whatever becomes of its day (`Moment.monthIndex_shifted`), so
that one month less is surely not beyond the goal, and one more surely is.  For the same reason
there is no other count with this property (`Moment.WholeMonths.unique`).

`Dates.dateDiff_counts_whole_months` is what this means for `DateDiff`.
-/

namespace Dialogue
namespace Calendar
namespace Moment

variable {start goal m shifted : Moment} {n k : Int}

/-! ## Moving by months -/

theorem month_bounds {d : Date} (h : d.isValid = true) :
    -3145716 ≤ d.monthIndex ∧ d.monthIndex ≤ 3145715 := by
  obtain ⟨hexists, hleast, hgreatest⟩ := Date.isValid_iff.1 h
  have := hexists.month_pos
  have := hexists.month_le
  simp only [leastYear, greatestYear] at hleast hgreatest
  simp only [Date.monthIndex]
  omega

/-- A moment that is moved by some months lies in the month that they lead to. -/
theorem monthIndex_shifted (h : m.shiftMonths? n = some shifted) :
    shifted.date.monthIndex = m.date.monthIndex + n := by
  obtain ⟨hdate, _⟩ := Date.ofCivil?_eq_some_iff.1 (shiftMonths?_eq_some_iff.1 h).2
  rw [hdate]
  simp only [Date.monthIndex]
  omega

/-- A moment can be moved to every month in the range of years. -/
theorem exists_shifted (hm : m.Exists) (hleast : -3145716 ≤ m.date.monthIndex + n)
    (hgreatest : m.date.monthIndex + n ≤ 3145715) : ∃ shifted, m.shiftMonths? n = some shifted := by
  have hday := (Date.isValid_iff.1 hm.date).1.day_pos
  have hpos := daysInMonth_pos ((m.date.monthIndex + n) / 12)
    (((m.date.monthIndex + n) % 12).toNat + 1)
  refine ⟨{ m with date := ⟨_, _, _⟩ },
    shiftMonths?_eq_some_iff.2 ⟨rfl, Date.ofCivil?_eq_some_iff.2 ⟨rfl, ?_⟩⟩⟩
  refine Date.isValid_iff.2 ⟨⟨?_, ?_, ?_, ?_⟩, ?_, ?_⟩ <;>
    simp only [leastYear, greatestYear] <;> omega

theorem shiftMonths?_zero (hm : m.Exists) : m.shiftMonths? 0 = some m := by
  have hdate := (Date.isValid_iff.1 hm.date).1
  refine shiftMonths?_eq_some_iff.2 ⟨rfl, Date.ofCivil?_eq_some_iff.2 ⟨?_, hm.date⟩⟩
  rw [Int.add_zero, Date.year_eq_of_monthIndex hdate, Date.month_eq_of_monthIndex hdate,
    Nat.min_eq_left hdate.day_le]

/-- Moments of an earlier month come first. -/
theorem instant_lt_of_monthIndex_lt (hm : m.Exists) (hgoal : goal.Exists)
    (h : m.date.monthIndex < goal.date.monthIndex) : m.instant < goal.instant := by
  refine (isBefore_iff hm hgoal).1 ?_
  rw [isBefore, Bool.or_eq_true, decide_eq_true_iff]
  exact .inl h

/-! ## Whole months -/

/-- The months from a start to a goal, rounded toward zero: moved by so many months the start does
not pass the goal, and by one more month it does, or it leaves the range of years. -/
structure WholeMonths (start goal : Moment) (n : Int) : Prop where
  forwards : start.instant ≤ goal.instant →
    0 ≤ n ∧ (∃ reached, start.shiftMonths? n = some reached ∧ reached.instant ≤ goal.instant) ∧
      ∀ next, start.shiftMonths? (n + 1) = some next → goal.instant < next.instant
  backwards : goal.instant ≤ start.instant →
    n ≤ 0 ∧ (∃ reached, start.shiftMonths? n = some reached ∧ goal.instant ≤ reached.instant) ∧
      ∀ next, start.shiftMonths? (n - 1) = some next → next.instant < goal.instant

theorem monthIndex_le_of_instant_le (hm : m.Exists) (hgoal : goal.Exists)
    (h : m.instant ≤ goal.instant) : m.date.monthIndex ≤ goal.date.monthIndex :=
  not_lt.1 fun hlt => (instant_lt_of_monthIndex_lt hgoal hm hlt).not_ge h

/-- Correcting the difference of the months once gives the whole months. -/
theorem wholeMonths_monthsUntil (hstart : start.Exists) (hgoal : goal.Exists) :
    start.WholeMonths goal (start.monthsUntil goal) := by
  obtain ⟨hstartLeast, hstartGreatest⟩ := month_bounds hstart.date
  obtain ⟨hgoalLeast, hgoalGreatest⟩ := month_bounds hgoal.date
  -- what lies in another month than the goal is on that side of it
  have hearlier {n : Int} (hn : start.date.monthIndex + n < goal.date.monthIndex) {s : Moment}
      (hs : start.shiftMonths? n = some s) : s.instant < goal.instant :=
    instant_lt_of_monthIndex_lt (exists_shiftMonths? hstart hs) hgoal
      (monthIndex_shifted hs ▸ hn)
  have hlater {n : Int} (hn : goal.date.monthIndex < start.date.monthIndex + n) {s : Moment}
      (hs : start.shiftMonths? n = some s) : goal.instant < s.instant :=
    instant_lt_of_monthIndex_lt hgoal (exists_shiftMonths? hstart hs)
      (monthIndex_shifted hs ▸ hn)
  generalize hmonths : goal.date.monthIndex - start.date.monthIndex = months
  obtain ⟨shifted, hshifted⟩ : ∃ shifted, start.shiftMonths? months = some shifted :=
    exists_shifted hstart (by omega) (by omega)
  have hbefore := isBefore_iff hgoal (exists_shiftMonths? hstart hshifted)
  have hafter := isBefore_iff (exists_shiftMonths? hstart hshifted) hgoal
  rw [monthsUntil]
  simp only [hmonths, hshifted]
  constructor
  · intro hle
    have hnonneg := monthIndex_le_of_instant_le hstart hgoal hle
    by_cases hpos : months > 0
    · rw [if_pos hpos]
      split
      · -- the start moved into the month of the goal is beyond it
        obtain ⟨reached, hreached⟩ : ∃ reached, start.shiftMonths? (months - 1) = some reached :=
          exists_shifted hstart (by omega) (by omega)
        refine ⟨by omega, ⟨reached, hreached, (hearlier (by omega) hreached).le⟩, ?_⟩
        intro next hnext
        obtain rfl := Option.some_inj.1 (hshifted.symm.trans (Int.sub_add_cancel months 1 ▸ hnext))
        exact hbefore.1 ‹_›
      · refine ⟨by omega, ⟨shifted, hshifted, not_lt.1 (hbefore.not.1 ‹_›)⟩, fun next hnext => ?_⟩
        exact hlater (by omega) hnext
    · rw [if_neg hpos, if_neg (by omega)]
      exact ⟨le_rfl, ⟨start, shiftMonths?_zero hstart, hle⟩, fun next hnext =>
        hlater (by omega) hnext⟩
  · intro hle
    have hnonpos := monthIndex_le_of_instant_le hgoal hstart hle
    rw [if_neg (by omega)]
    by_cases hneg : months < 0
    · rw [if_pos hneg]
      split
      · obtain ⟨reached, hreached⟩ : ∃ reached, start.shiftMonths? (months + 1) = some reached :=
          exists_shifted hstart (by omega) (by omega)
        refine ⟨by omega, ⟨reached, hreached, (hlater (by omega) hreached).le⟩, ?_⟩
        intro next hnext
        obtain rfl := Option.some_inj.1 (hshifted.symm.trans (Int.add_sub_cancel months 1 ▸ hnext))
        exact hafter.1 ‹_›
      · refine ⟨by omega, ⟨shifted, hshifted, not_lt.1 (hafter.not.1 ‹_›)⟩, fun next hnext => ?_⟩
        exact hearlier (by omega) hnext
    · rw [if_neg hneg]
      exact ⟨le_rfl, ⟨start, shiftMonths?_zero hstart, hle⟩, fun next hnext =>
        hearlier (by omega) hnext⟩

/-- No number of months that is rounded toward zero is less than another one. -/
theorem WholeMonths.not_less (hstart : start.Exists) (hn : start.WholeMonths goal n)
    (hk : start.WholeMonths goal k) : ¬ n < k := by
  intro hlt
  obtain ⟨hstartLeast, hstartGreatest⟩ := month_bounds hstart.date
  rcases le_total start.instant goal.instant with hle | hle
  · -- one more than `n` passes the goal, and `k` does not
    obtain ⟨hnonneg, -, hnext⟩ := hn.forwards hle
    obtain ⟨-, ⟨reached, hreached, hreachedLe⟩, -⟩ := hk.forwards hle
    have hexists := exists_shiftMonths? hstart hreached
    have hmonth := monthIndex_shifted hreached
    have hbounds := month_bounds hexists.date
    obtain ⟨next, hnext'⟩ := exists_shifted hstart (n := n + 1) (by omega) (by omega)
    have hbeyond := hreachedLe.trans_lt (hnext next hnext')
    have hmonth' := monthIndex_shifted hnext'
    have := monthIndex_le_of_instant_le hexists (exists_shiftMonths? hstart hnext') hbeyond.le
    obtain rfl : n + 1 = k := by omega
    obtain rfl := Option.some_inj.1 (hreached.symm.trans hnext')
    exact hbeyond.false
  · obtain ⟨-, ⟨reached, hreached, hreachedLe⟩, -⟩ := hn.backwards hle
    obtain ⟨hnonpos, -, hnext⟩ := hk.backwards hle
    have hexists := exists_shiftMonths? hstart hreached
    have hmonth := monthIndex_shifted hreached
    have hbounds := month_bounds hexists.date
    obtain ⟨next, hnext'⟩ := exists_shifted hstart (n := k - 1) (by omega) (by omega)
    have hbeyond := (hnext next hnext').trans_le hreachedLe
    have hmonth' := monthIndex_shifted hnext'
    have := monthIndex_le_of_instant_le (exists_shiftMonths? hstart hnext') hexists hbeyond.le
    obtain rfl : n = k - 1 := by omega
    obtain rfl := Option.some_inj.1 (hreached.symm.trans hnext')
    exact hbeyond.false

/-- There is only one number of whole months. -/
theorem WholeMonths.unique (hstart : start.Exists) (hn : start.WholeMonths goal n)
    (hk : start.WholeMonths goal k) : n = k :=
  le_antisymm (not_lt.1 (hk.not_less hstart hn)) (not_lt.1 (hn.not_less hstart hk))

theorem unitsUntil_months (start goal : Moment) :
    start.unitsUntil goal .months = start.monthsUntil goal :=
  Int.tdiv_one _

theorem unitsUntil_years (start goal : Moment) :
    start.unitsUntil goal .years = (start.monthsUntil goal).tdiv 12 :=
  rfl

end Moment
end Calendar

namespace Dates

open Calendar

theorem dateDiff_eq {params : Fields} {start goal : Moment} {span : TimeUnit}
    (hstart : moment "DateDiff" params "from" = .ok start)
    (hgoal : moment "DateDiff" params "to" = .ok goal) (hunit : unit params = .ok span) :
    dateDiff params = .ok (.ofInt (start.unitsUntil goal span)) := by
  rw [dateDiff, hstart, hgoal, hunit]
  rfl

/-- `DateDiff` in months counts the whole months between the moments that it reads, and in years
the twelfth part of them, without its fraction. -/
theorem dateDiff_counts_whole_months {params : Fields} {start goal : Moment}
    (hstart : moment "DateDiff" params "from" = .ok start)
    (hgoal : moment "DateDiff" params "to" = .ok goal) :
    ∃ n, start.WholeMonths goal n ∧
      (unit params = .ok .months → dateDiff params = .ok (.ofInt n)) ∧
      (unit params = .ok .years → dateDiff params = .ok (.ofInt (n.tdiv 12))) := by
  refine ⟨start.monthsUntil goal,
    Moment.wholeMonths_monthsUntil (exists_moment hstart) (exists_moment hgoal), ?_, ?_⟩
  · intro hunit
    rw [dateDiff_eq hstart hgoal hunit, Moment.unitsUntil_months]
  · intro hunit
    rw [dateDiff_eq hstart hgoal hunit, Moment.unitsUntil_years]

/-- From the last of January to the first of March it is one month, since the last of January moved
by a month is the last of February. -/
theorem january_to_march :
    let params : Fields := [("from", .string "2024-01-31"), ("to", .string "2024-03-01"),
      ("unit", .string "months")]
    let start : Moment := .ofDate ⟨2024, 1, 31⟩
    let goal : Moment := .ofDate ⟨2024, 3, 1⟩
    moment "DateDiff" params "from" = .ok start ∧ moment "DateDiff" params "to" = .ok goal ∧
      dateDiff params = .ok (.ofInt 1) ∧ start.WholeMonths goal 1 := by
  intro params start goal
  have hstart : moment "DateDiff" params "from" = .ok start :=
    moment_eq_ok_iff.2 ⟨.string "2024-01-31", rfl, by decide⟩
  have hgoal : moment "DateDiff" params "to" = .ok goal :=
    moment_eq_ok_iff.2 ⟨.string "2024-03-01", rfl, by decide⟩
  have htext : Parameters.text? params "unit" = some "months" := rfl
  have hunit : unit params = .ok .months := by
    rw [unit_eq_ok_iff, htext]
    decide
  have hdiff : dateDiff params = .ok (.ofInt 1) := by
    have hmonths : start.monthsUntil goal = 1 := by decide
    rw [dateDiff_eq hstart hgoal hunit, Moment.unitsUntil_months, hmonths]
  obtain ⟨n, hn, hmonths, -⟩ := dateDiff_counts_whole_months hstart hgoal
  have hsame := hdiff.symm.trans (hmonths hunit)
  have hone : n = 1 := by
    simpa [Value.ofInt] using hsame.symm
  exact ⟨hstart, hgoal, hdiff, hone ▸ hn⟩

end Dates
end Dialogue
