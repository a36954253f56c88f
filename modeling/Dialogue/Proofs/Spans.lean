import Mathlib
import Dialogue.Proofs.Months
import Dialogue.Proofs.Stamps
import Dialogue.Proofs.WholeFloats

/-!
# Adding and counting

`AddToDate` moves a moment by a number of units, and writes where it comes to; `DateDiff` counts the
units from one moment to another.  `Dates.dateDiff_after_addToDate` says what `DateDiff` counts from
a date to the text that `AddToDate` gives for it.

An amount is added as a float, but never inexactly: what would be rounded is out of range
(`Moment.plusUnits_eq_ok`).  The text keeps the full seconds of the moved moment, so that from the
date to the text it is less than was added, by the fraction of a second that the date has.  Spans of
fixed length are counted from the difference in nanoseconds (`Moment.unitsUntil_whole`), and in a
leap second this also depends on which of the two moments counts it
(`Moment.unitsUntil_whole_of_leap`); months are counted by the names of the months
(`Moment.unitsUntil_whole_of_months`).
-/

namespace Dialogue

namespace Decimal

open Float.Model UnpackedFloat

variable {x y : Float} {m n : Int}

theorem isInt_spanLimit : IsInt Calendar.Moment.spanLimit 1000000000000000 where
  unpack := ⟨.positive, rfl, rfl⟩
  short := short_of_lt (by decide)
  small := lt_floatBound (k := 50) (by decide) (by decide)

/-- Infinities are beyond every limit. -/
theorem not_abs_lt_of_infinite {s : Sign}
    (h : x.toModel.unpack = .infinity s) : ¬ x.abs < Calendar.Moment.spanLimit := by
  have habs : x.abs.toModel.unpack = .infinity .positive := by
    change (Float.Model.pack x.toModel.unpack.abs).unpack = _
    rw [h]
    simp [Float.Model.pack, Float.Model.unpack, UnpackedFloat.abs, UnpackedFloat.pack,
      UnpackedFloat.unpack, packedInfinity, Sign.ofBitVec, Sign.toBitVec]
  change ¬ decide ((x.abs.toModel.unpack.compare Calendar.Moment.spanLimit.toModel.unpack ==
    some .lt) = true) = true
  rw [habs]
  decide

theorem IsInt.abs_lt_spanLimit_iff (h : IsInt x n) :
    x.abs < Calendar.Moment.spanLimit ↔ |n| < 1000000000000000 :=
  h.abs.lt_iff isInt_spanLimit

end Decimal

/-- The whole number that an amount gives: an integer, or the number of a float or of a text. -/
def Value.Gives (v : Value) (n : Int) : Prop :=
  (v = .number (.int n) ∧ Number.Fits n) ∨
    ∃ x, v.toNumber? = some x ∧ Decimal.isWhole x = true ∧ Decimal.truncate? x = some n

namespace Calendar
namespace Moment

open Decimal

variable {m moved : Moment} {x y : Float} {n k : Int}

/-- A product is added as a span only if it is exact. -/
theorem plusMillis?_mul (hx : IsInt x n) (hy : IsInt y k)
    (h : m.plusMillis? (x * y) = some moved) :
    |n * k| < 1000000000000000 ∧ m.plus? (n * k * 1000000) = some moved := by
  obtain ⟨hspan, h⟩ := Option.ite_none_right_eq_some.1 h
  rcases hx.mul_cases hy with hexact | ⟨l, hlarge, hl⟩ | ⟨s, hinfinite⟩
  · rw [hexact.truncate?, Option.bind_some] at h
    exact ⟨hexact.abs_lt_spanLimit_iff.1 hspan, h⟩
  · have hless := hlarge.abs_lt_spanLimit_iff.1 hspan
    rw [Int.abs_eq_natAbs] at hless
    omega
  · exact absurd hspan (not_abs_lt_of_infinite hinfinite)

/-- A product is added as a number of months only if it is exact. -/
theorem plusMonths?_mul (hx : IsInt x n) (hy : IsInt y k) (hwhole : isWhole (x * y) = true)
    (h : (truncate? (x * y)).bind m.plusMonths? = some moved) :
    (n * k).natAbs ≤ monthLimit ∧ m.shiftMonths? (n * k) = some moved := by
  rcases hx.mul_cases hy with hexact | ⟨l, hlarge, hl⟩ | ⟨s, hinfinite⟩
  · rw [hexact.truncate?, Option.bind_some] at h
    exact Option.ite_none_right_eq_some.1 h
  · rw [hlarge.truncate?, Option.bind_some] at h
    have hlimit := (Option.ite_none_right_eq_some.1 h).1
    have : monthLimit < 2 ^ 53 := by decide
    omega
  · have hfinite := not_isFinite_of_infinite hinfinite
    rw [isWhole, hfinite] at hwhole
    simp at hwhole

theorem natAbs_lt_of_mul {k : Nat} {limit : Nat} (hk : 0 < k) (h : (n * k).natAbs < limit) :
    n.natAbs < limit := by
  rw [Int.natAbs_mul, Int.natAbs_natCast] at h
  exact (Nat.le_mul_of_pos_right _ hk).trans_lt h

theorem eq_some_of_getD_ok {found : Option Moment} {e : ShiftError}
    (h : (found.map Except.ok).getD (.error e) = .ok moved) : found = some moved := by
  cases found with
  | none => cases h
  | some result => exact congrArg some (Except.ok.inj h)

/-- What is added of a whole number of units. -/
theorem plusUnits_eq_ok {u : TimeUnit} (hx : IsInt x n) (h : m.plusUnits x u = .ok moved) :
    n.natAbs < 2 ^ 53 ∧
      ((∃ seconds, u.seconds? = some seconds ∧
          m.plus? (n * (secondNanos * seconds : Nat)) = some moved) ∨
        u.seconds? = none ∧ m.shiftMonths? (n * u.monthCount) = some moved) := by
  unfold plusUnits at h
  split at h
  · rename_i seconds hseconds
    have hlength : 0 < seconds ∧ seconds * 1000 < 2 ^ 53 := by
      cases u <;> simp [TimeUnit.seconds?] at hseconds <;> omega
    obtain ⟨hsmall, hplus⟩ := plusMillis?_mul hx (isInt_ofNat_of_lt hlength.2)
      (eq_some_of_getD_ok h)
    rw [Int.abs_eq_natAbs] at hsmall
    refine ⟨natAbs_lt_of_mul (k := seconds * 1000) (by omega) (by omega),
      .inl ⟨seconds, hseconds, ?_⟩⟩
    rw [← hplus]
    congr 1
    simp only [secondNanos]
    push_cast
    ring
  · rename_i hseconds
    dsimp only at h
    split at h
    · have hcount : 0 < u.monthCount ∧ u.monthCount < 2 ^ 53 := by
        cases u <;> decide
      obtain ⟨hsmall, hshift⟩ := plusMonths?_mul hx (isInt_ofNat_of_lt hcount.2) ‹_›
        (eq_some_of_getD_ok h)
      refine ⟨natAbs_lt_of_mul hcount.1 (hsmall.trans_lt (by decide)), .inr ⟨hseconds, hshift⟩⟩
    · cases h

/-- A moment moved by an amount is moved by the whole number that the amount gives. -/
theorem isInt_of_gives {amount : Value} {u : TimeUnit} (hn : amount.Gives n)
    (hx : amount.toNumber? = some x) (h : m.plusUnits x u = .ok moved) : IsInt x n := by
  rcases hn with ⟨rfl, hfits⟩ | ⟨y, hy, hint⟩
  · obtain rfl := Option.some_inj.1 hx
    -- an integer that is not its own float is too large to be added
    have hnearest := isInt_ofInt hfits
    rwa [nearest_eq_self (plusUnits_eq_ok hnearest h).1] at hnearest
  · obtain rfl := Option.some_inj.1 (hx.symm.trans hy)
    exact isInt_iff.2 hint

/-! ## Counting -/

theorem exists_plus? {span : Int} (hm : m.Exists) (h : m.plus? span = some moved) :
    moved.Exists := by
  unfold plus? at h
  dsimp only at h
  split at h
  · split at h
    · exact exists_ofNanos? h
    · split at h
      · obtain rfl := Option.some_inj.1 h
        have hleap : secondNanos ≤ m.nano := by simpa [isLeapSecond] using ‹m.isLeapSecond = true›
        exact ⟨hm.date, hm.second, by dsimp only; omega, fun _ => hm.leap hleap⟩
      · exact exists_ofNanos? h
  · exact exists_ofNanos? h

/-- So many whole seconds later, the full seconds are as many later, and what comes behind them
stays. -/
theorem whole_of_ofNanos? {seconds : Int}
    (h : ofNanos? (m.nanos + secondNanos * seconds) = some moved) :
    moved.whole.nanos = m.nanos + secondNanos * seconds - m.fraction ∧
      moved.whole.isLeapSecond = false := by
  obtain ⟨-, h⟩ := Option.ite_none_right_eq_some.1 h
  obtain rfl := Option.some_inj.1 h
  rw [isLeapSecond, decide_eq_false_iff_not]
  simp only [nanos, whole, timestamp, fraction, ofNanos, Date.number_ofNumber, daySeconds,
    secondNanos]
  omega

@[simp] theorem whole_second (m : Moment) : m.whole.second = m.second := rfl

theorem leapBetween_of_second_eq {later earlier : Moment} (h : later.second = earlier.second) :
    leapBetween later earlier = 0 := by
  rw [leapBetween, if_neg (by omega), if_neg (by omega)]

theorem since_of_not_leap {later earlier : Moment} (hearlier : earlier.isLeapSecond = false)
    (hlater : later.isLeapSecond = false) :
    later.since earlier = later.nanos - earlier.nanos := by
  simp [since, leapBetween, hearlier, hlater]

/-- From a leap second to other moments, its second is counted once more if the time of day is
later. -/
theorem since_of_leap {later earlier : Moment} (hearlier : earlier.isLeapSecond = true)
    (hlater : later.isLeapSecond = false) :
    later.since earlier =
      later.nanos - earlier.nanos +
        if earlier.second < later.second then (secondNanos : Int) else 0 := by
  simp [since, leapBetween, hearlier, hlater]

/-- What is lost when a moment in a leap second is moved by a number of seconds and counted again.
A move forwards gives the leap second back, and it is only counted to a later time of day; a move
backwards leaves it where it is, and it is counted to a later time of day all the same. -/
def leapLost (m moved : Moment) (n : Int) : Int :=
  if 0 < n ∧ moved.second ≤ m.second then secondNanos
  else if n < 0 ∧ m.second < moved.second then -secondNanos
  else 0

/-- A moment that is not in a leap second moves by whole seconds, and keeps what comes behind
them. -/
theorem since_whole_of_plus? {seconds : Int} (hleap : m.isLeapSecond = false)
    (h : m.plus? (secondNanos * seconds) = some moved) :
    moved.whole.since m = secondNanos * seconds - m.fraction := by
  rw [plus?, if_neg (by simp [hleap])] at h
  obtain ⟨hnanos, hmoved⟩ := whole_of_ofNanos? h
  rw [since_of_not_leap hleap hmoved, hnanos]
  ring

/-- A moment in a leap second gives its second back when it moves forwards out of it, and takes
it along when it moves backwards. -/
theorem since_whole_of_leap_plus? (hm : m.Exists) (hleap : m.isLeapSecond = true) {seconds : Int}
    (h : m.plus? (secondNanos * seconds) = some moved) :
    moved.whole.since m = secondNanos * seconds - m.fraction - leapLost m moved seconds := by
  have hnano : secondNanos ≤ m.nano := by simpa [isLeapSecond] using hleap
  have hnano' := hm.nano
  rw [plus?, if_pos hleap] at h
  dsimp only at h
  split at h
  · -- forwards
    have hpos : 0 < seconds := by
      simp only [secondNanos] at *
      omega
    rw [show m.nanos + secondNanos * seconds - secondNanos =
      m.nanos + secondNanos * (seconds - 1) by ring] at h
    obtain ⟨hnanos, hmoved⟩ := whole_of_ofNanos? h
    rw [since_of_leap hleap hmoved, hnanos, whole_second, leapLost,
      if_neg (by omega : ¬ (seconds < 0 ∧ _))]
    by_cases hlater : m.second < moved.second
    · rw [if_pos hlater, if_neg (mt And.right (not_le.2 hlater))]
      ring
    · rw [if_neg hlater, if_pos ⟨hpos, not_lt.1 hlater⟩]
      ring
  · split at h
    · -- in the leap second
      have hzero : seconds = 0 := by
        simp only [secondNanos] at *
        omega
      have hmoved : moved = m := by
        rw [← Option.some_inj.1 h, hzero]
        simp
      rw [since, hmoved, leapBetween_of_second_eq (whole_second m), leapLost, hzero,
        if_neg (by simp), if_neg (by simp)]
      simp only [nanos, whole, timestamp, fraction, secondNanos]
      omega
    · -- backwards
      have hneg : seconds < 0 := by
        simp only [secondNanos] at *
        omega
      obtain ⟨hnanos, hmoved⟩ := whole_of_ofNanos? h
      rw [since_of_leap hleap hmoved, hnanos, whole_second, leapLost,
        if_neg (by omega : ¬ (0 < seconds ∧ _))]
      by_cases hlater : m.second < moved.second
      · rw [if_pos hlater, if_pos ⟨hneg, hlater⟩]
        ring
      · rw [if_neg hlater, if_neg (mt And.right hlater)]
        ring

/-- A difference that falls short of so many units by less than one. -/
theorem tdiv_sub {unit rest : Int} (hrest : 0 ≤ rest) (hless : rest < unit) :
    (n * unit - rest).tdiv unit = if 0 < n ∧ 0 < rest then n - 1 else n := by
  rcases lt_or_ge 0 n with hpos | hnonpos
  · rw [Int.tdiv_eq_ediv_of_nonneg (by nlinarith)]
    split
    · rw [show n * unit - rest = (unit - rest) + (n - 1) * unit by ring,
        Int.add_mul_ediv_right _ _ (by omega), Int.ediv_eq_zero_of_lt (by omega) (by omega),
        zero_add]
    · rw [show rest = 0 by omega, sub_zero, Int.mul_ediv_cancel _ (by omega)]
  · rw [if_neg (by omega), show n * unit - rest = -(-n * unit + rest) by ring, Int.neg_tdiv,
      Int.tdiv_eq_ediv_of_nonneg (by nlinarith), Int.add_comm,
      Int.add_mul_ediv_right _ _ (by omega), Int.ediv_eq_zero_of_lt hrest hless]
    omega

/-- Months are moved exactly, and counted up to what comes behind the full second. -/
theorem monthsUntil_whole (hm : m.Exists) (h : m.shiftMonths? n = some moved) :
    m.monthsUntil moved.whole = if 0 < n ∧ 0 < m.fraction then n - 1 else n := by
  have hmoved := exists_shiftMonths? hm h
  have hmonths : moved.whole.date.monthIndex - m.date.monthIndex = n := by
    rw [show moved.whole.date = moved.date from rfl, monthIndex_shifted h]
    ring
  have hnano : moved.nano = m.nano := by rw [(shiftMonths?_eq_some_iff.1 h).1]
  have hbefore : moved.whole.isBefore moved = true ↔ 0 < m.fraction := by
    rw [isBefore_iff (exists_whole hmoved) hmoved, instant, instant, Prod.Lex.toLex_lt_toLex]
    simp only [whole, timestamp, lt_irrefl, false_or, true_and, hnano, fraction, secondNanos]
    omega
  have hafter : ¬ moved.isBefore moved.whole = true := by
    rw [isBefore_iff hmoved (exists_whole hmoved), instant, instant, Prod.Lex.toLex_lt_toLex]
    simp only [whole, timestamp, lt_irrefl, false_or, true_and, secondNanos]
    omega
  rw [monthsUntil]
  simp only [hmonths, h]
  rcases lt_trichotomy n 0 with hneg | rfl | hpos
  · rw [if_neg (by omega), if_pos hneg, if_neg hafter, if_neg (by omega)]
  · simp
  · rw [if_pos hpos]
    by_cases hfraction : 0 < m.fraction
    · rw [if_pos (hbefore.2 hfraction), if_pos ⟨hpos, hfraction⟩]
    · rw [if_neg (hbefore.not.2 hfraction), if_neg (mt And.right hfraction)]

theorem fraction_lt (m : Moment) : m.fraction < secondNanos := Nat.mod_lt _ (by decide)

variable {u : TimeUnit} {seconds : Nat}

theorem secondsOf_pos (h : u.seconds? = some seconds) : 0 < seconds := by
  cases u <;> simp [TimeUnit.seconds?] at h <;> omega

theorem unitsUntil_whole (hleap : m.isLeapSecond = false) (hu : u.seconds? = some seconds)
    (h : m.plus? (n * (secondNanos * seconds : Nat)) = some moved) :
    m.unitsUntil moved.whole u = if 0 < n ∧ 0 < m.fraction then n - 1 else n := by
  have hpos := secondsOf_pos hu
  have hfraction := fraction_lt m
  have hspan : n * (secondNanos * seconds : Nat) = secondNanos * (n * seconds) := by
    push_cast
    ring
  rw [hspan] at h
  rw [unitsUntil, hu]
  dsimp only
  rw [since_whole_of_plus? hleap h, ← hspan]
  push_cast
  rw [tdiv_sub (by omega) (by simp only [secondNanos] at *; omega)]
  simp

theorem unitsUntil_whole_of_leap (hm : m.Exists) (hleap : m.isLeapSecond = true)
    (hu : u.seconds? = some seconds)
    (h : m.plus? (n * (secondNanos * seconds : Nat)) = some moved) :
    m.unitsUntil moved.whole u =
      (n * (secondNanos * seconds) - m.fraction - leapLost m moved n).tdiv
        (secondNanos * seconds) := by
  have hpos := secondsOf_pos hu
  have hspan : n * (secondNanos * seconds : Nat) = secondNanos * (n * seconds) := by
    push_cast
    ring
  have hlost : leapLost m moved (n * seconds) = leapLost m moved n := by
    have hsign : 0 < n * seconds ↔ 0 < n := by
      rw [mul_pos_iff_of_pos_right (by omega)]
    have hsign' : n * seconds < 0 ↔ n < 0 := by
      rw [← not_le, ← not_le, mul_nonneg_iff_of_pos_right (by omega)]
    simp only [leapLost, hsign, hsign']
  rw [hspan] at h
  rw [unitsUntil, hu]
  dsimp only
  rw [since_whole_of_leap_plus? hm hleap h, ← hspan, hlost]
  push_cast
  rfl

theorem unitsUntil_whole_of_months (hm : m.Exists) (hu : u.seconds? = none)
    (h : m.shiftMonths? (n * u.monthCount) = some moved) :
    m.unitsUntil moved.whole u = if 0 < n ∧ 0 < m.fraction then n - 1 else n := by
  have hmonths := monthsUntil_whole hm h
  rw [unitsUntil, hu]
  dsimp only
  rw [hmonths]
  cases u with
  | seconds | minutes | hours | days | weeks => cases hu
  | months => simp [TimeUnit.monthCount]
  | years =>
      have hyears : (if 0 < n * 12 ∧ 0 < m.fraction then n * 12 - 1 else n * 12) =
          n * 12 - if 0 < n ∧ 0 < m.fraction then 1 else 0 := by
        split <;> split <;> omega
      change (if 0 < n * 12 ∧ 0 < m.fraction then n * 12 - 1 else n * 12).tdiv 12 = _
      rw [hyears, tdiv_sub (by split <;> omega) (by split <;> omega)]
      split <;> split <;> omega

end Moment
end Calendar

namespace Dates

open Calendar

variable {add diff : Fields} {amount v : Value} {d : Moment} {u : TimeUnit} {n : Int}

theorem addToDate_eq {x : Float} (hdate : moment "AddToDate" add "date" = .ok d)
    (hx : Parameters.requiredNumber "AddToDate" add "amount" = .ok x) (hunit : unit add = .ok u) :
    addToDate add = match d.plusUnits x u with
      | .ok moved => .ok (written moved)
      | .error e => .error (shiftFailure e) := by
  rw [addToDate, hdate, hx, hunit]
  rfl

theorem addToDate_eq_ok (hdate : moment "AddToDate" add "date" = .ok d)
    (hamount : Parameters.given? add "amount" = some amount) (hunit : unit add = .ok u)
    (h : addToDate add = .ok v) :
    ∃ x moved, amount.toNumber? = some x ∧ d.plusUnits x u = .ok moved ∧ v = written moved := by
  have hread : Parameters.requiredNumber "AddToDate" add "amount" =
      Parameters.number "AddToDate" amount := by
    rw [Parameters.requiredNumber, Parameters.required, hamount]
    rfl
  obtain ⟨_, -, hrest⟩ := exists_of_except_bind h
  obtain ⟨x, hx, -⟩ := exists_of_except_bind hrest
  rw [addToDate_eq hdate hx hunit] at h
  have hnumber : amount.toNumber? = some x := by
    rw [hread, Parameters.number] at hx
    cases htext : amount.toNumber? with
    | none => rw [htext] at hx; cases hx
    | some y =>
        rw [htext] at hx
        exact congrArg some (Except.ok.inj hx)
  cases hmoved : d.plusUnits x u with
  | error e => rw [hmoved] at h; cases h
  | ok moved =>
      rw [hmoved] at h
      exact ⟨x, moved, hnumber, hmoved, (Except.ok.inj h).symm⟩

theorem moment_of_get? {function name : String} {params : Fields} {raw : Value}
    (h : params.get? name = some raw) (hread : Moment.ofValue? raw = some d) :
    moment function params name = .ok d := by
  refine moment_eq_ok_iff.2 ⟨raw, ?_, hread⟩
  have hnull : raw.isNull = false := by
    cases raw with
    | null => cases hread
    | bool | number | string | array | object => rfl
  rw [Parameters.given?, h, Option.filter_some, hnull]
  rfl

/-- A moved moment is read back from what `AddToDate` gives, up to the full second. -/
theorem moment_written {function name : String} {moved : Moment} (hmoved : moved.Exists)
    (hyear : 0 ≤ moved.date.year) (hyear' : moved.date.year ≤ 9999)
    (h : diff.get? name = some (written moved)) : moment function diff name = .ok moved.whole := by
  refine moment_of_get? h ?_
  rw [written, Moment.ofValue?]
  exact Moment.ofText?_text hmoved hyear hyear'

theorem exists_of_plusUnits {x : Float} {moved : Moment} (hd : d.Exists)
    (hx : Decimal.IsInt x n) (h : d.plusUnits x u = .ok moved) : moved.Exists := by
  rcases (Moment.plusUnits_eq_ok hx h).2 with ⟨_, -, hplus⟩ | ⟨-, hshift⟩
  · exact Moment.exists_plus? hd hplus
  · exact Moment.exists_shiftMonths? hd hshift

/-! ## From a date to that date moved -/

/-- The parameters that add a number of units to a date. -/
def adding (n : Int) (date : Value) (name : String) : Fields :=
  [("amount", .ofInt n), ("date", date), ("unit", .string name)]

/-- The parameters that count the units from one date to another. -/
def counting (start goal : Value) (name : String) : Fields :=
  [("from", start), ("to", goal), ("unit", .string name)]

section

variable {date start goal : Value} {name : String} {moved first last : Moment}

theorem unit_adding (n : Int) (date : Value) (h : TimeUnit.ofName? name = some u) :
    unit (adding n date name) = .ok u :=
  unit_eq_ok_iff.2 h

theorem addToDate_adding (hdate : Moment.ofValue? date = some d)
    (hname : TimeUnit.ofName? name = some u)
    (h : d.plusUnits (Float.ofInt n) u = .ok moved) :
    addToDate (adding n date name) = .ok (written moved) := by
  have hread : moment "AddToDate" (adding n date name) "date" = .ok d := moment_of_get? rfl hdate
  have hamount : Parameters.requiredNumber "AddToDate" (adding n date name) "amount" =
      .ok (Float.ofInt n) := rfl
  rw [addToDate_eq hread hamount (unit_adding n date hname), h]

theorem dateDiff_counting (hstart : Moment.ofValue? start = some first)
    (hgoal : Moment.ofValue? goal = some last) (hname : TimeUnit.ofName? name = some u) :
    dateDiff (counting start goal name) = .ok (.ofInt (first.unitsUntil last u)) :=
  dateDiff_eq (moment_of_get? rfl hstart) (moment_of_get? rfl hgoal) (unit_eq_ok_iff.2 hname)

end

/-- `DateDiff` counts the units that `AddToDate` has added, up to the full second, since no more
is written.  So a fraction of a second costs one unit where the count is positive.  From a leap
second, units of fixed length may also lose or win that second (`Moment.leapLost`). -/
theorem dateDiff_after_addToDate (hdate : moment "AddToDate" add "date" = .ok d)
    (hamount : Parameters.given? add "amount" = some amount) (hn : amount.Gives n)
    (hunit : unit add = .ok u) (hadd : addToDate add = .ok v)
    (hstart : moment "DateDiff" diff "from" = .ok d) (hgoal : diff.get? "to" = some v)
    (hspan : unit diff = .ok u) :
    ∃ x moved, amount.toNumber? = some x ∧ d.plusUnits x u = .ok moved ∧ v = written moved ∧
      (0 ≤ moved.date.year → moved.date.year ≤ 9999 →
        (d.isLeapSecond = false ∨ u.seconds? = none →
          dateDiff diff = .ok (.ofInt (if 0 < n ∧ 0 < d.fraction then n - 1 else n))) ∧
        ∀ seconds, d.isLeapSecond = true → u.seconds? = some seconds →
          dateDiff diff = .ok (.ofInt
            ((n * (secondNanos * seconds) - d.fraction - d.leapLost moved n).tdiv
              (secondNanos * seconds)))) := by
  obtain ⟨x, moved, hx, hplus, rfl⟩ := addToDate_eq_ok hdate hamount hunit hadd
  refine ⟨x, moved, hx, hplus, rfl, fun hyear hyear' => ?_⟩
  have hd := exists_moment hdate
  have hint := Moment.isInt_of_gives hn hx hplus
  have hmoved := exists_of_plusUnits hd hint hplus
  -- what is counted to are the full seconds of the moved moment
  rw [dateDiff_eq hstart (moment_written hmoved hyear hyear' hgoal) hspan]
  rcases (Moment.plusUnits_eq_ok hint hplus).2 with ⟨length, hu, hmove⟩ | ⟨hu, hmove⟩
  · constructor
    · rintro (hleap | hnone)
      · rw [Moment.unitsUntil_whole hleap hu hmove]
      · cases hu.symm.trans hnone
    · intro seconds hleap hseconds
      obtain rfl := Option.some_inj.1 (hu.symm.trans hseconds)
      rw [Moment.unitsUntil_whole_of_leap hd hleap hu hmove]
  · constructor
    · intro _
      rw [Moment.unitsUntil_whole_of_months hd hu hmove]
    · intro seconds _ hseconds
      cases hu.symm.trans hseconds

/-- A month after the last of January is the last of February, and that is one month later. -/
theorem month_after_january :
    (Value.ofInt 1).Gives 1 ∧
      addToDate (adding 1 (.string "2024-01-31") "months") =
        .ok (.string "2024-02-29T00:00:00Z") ∧
      dateDiff (counting (.string "2024-01-31") (.string "2024-02-29T00:00:00Z") "months") =
        .ok (.ofInt 1) := by
  have hname : TimeUnit.ofName? "months" = some .months := by decide
  have hread : Moment.ofValue? (.string "2024-01-31") = some (.ofDate ⟨2024, 1, 31⟩) := by
    decide
  have hplus : (Moment.ofDate ⟨2024, 1, 31⟩).plusUnits (Float.ofInt 1) .months =
      .ok (.ofDate ⟨2024, 2, 29⟩) := by decide
  have htext : written (.ofDate ⟨2024, 2, 29⟩) = .string "2024-02-29T00:00:00Z" := rfl
  have hadd : addToDate (adding 1 (.string "2024-01-31") "months") =
      .ok (.string "2024-02-29T00:00:00Z") := htext ▸ addToDate_adding hread hname hplus
  have hgives : (Value.ofInt 1).Gives 1 := .inl ⟨rfl, by decide⟩
  obtain ⟨x, moved, hx, hmoved, -, hdiff⟩ :=
    dateDiff_after_addToDate (moment_of_get? rfl hread) rfl hgives (unit_adding 1 _ hname) hadd
      (moment_of_get? rfl hread) rfl
      (unit_eq_ok_iff.2 hname : unit (counting (.string "2024-01-31") _ "months") = _)
  obtain rfl := Option.some_inj.1 hx
  obtain rfl := Except.ok.inj (hplus.symm.trans hmoved)
  exact ⟨hgives, hadd, (hdiff (by decide) (by decide)).1 (.inr rfl)⟩

/-- Half a second after a full one, a second is added and none is counted, since the text of the
moved date ends at the full second.  In a leap second none is counted either: the second that is
added is given back at midnight. -/
theorem added_second_is_not_counted :
    (addToDate (adding 1 (.ofInt 1704067200500) "seconds") = .ok (.string "2024-01-01T00:00:01Z") ∧
      dateDiff (counting (.ofInt 1704067200500) (.string "2024-01-01T00:00:01Z") "seconds") =
        .ok (.ofInt 0)) ∧
    addToDate (adding 1 (.string "2016-12-31T23:59:60Z") "seconds") =
        .ok (.string "2017-01-01T00:00:00Z") ∧
      dateDiff (counting (.string "2016-12-31T23:59:60Z") (.string "2017-01-01T00:00:00Z")
        "seconds") = .ok (.ofInt 0) := by
  have hname : TimeUnit.ofName? "seconds" = some .seconds := by decide
  constructor
  · let start : Moment := ⟨⟨2024, 1, 1⟩, 0, 500000000⟩
    have hstart : Moment.ofValue? (.ofInt 1704067200500) = some start := by decide
    have hgoal : Moment.ofValue? (.string "2024-01-01T00:00:01Z") = some ⟨⟨2024, 1, 1⟩, 1, 0⟩ := by
      decide
    have hplus : start.plusUnits (Float.ofInt 1) .seconds =
        .ok ⟨⟨2024, 1, 1⟩, 1, 500000000⟩ := by decide
    have htext : written ⟨⟨2024, 1, 1⟩, 1, 500000000⟩ = .string "2024-01-01T00:00:01Z" := rfl
    have huntil : start.unitsUntil ⟨⟨2024, 1, 1⟩, 1, 0⟩ .seconds = 0 := by decide
    exact ⟨htext ▸ addToDate_adding hstart hname hplus,
      huntil ▸ dateDiff_counting hstart hgoal hname⟩
  · let start : Moment := ⟨⟨2016, 12, 31⟩, 86399, 1000000000⟩
    have hstart : Moment.ofValue? (.string "2016-12-31T23:59:60Z") = some start := by
      decide
    have hgoal : Moment.ofValue? (.string "2017-01-01T00:00:00Z") =
        some (.ofDate ⟨2017, 1, 1⟩) := by decide
    have hplus : start.plusUnits (Float.ofInt 1) .seconds = .ok (.ofDate ⟨2017, 1, 1⟩) := by
      decide
    have htext : written (.ofDate ⟨2017, 1, 1⟩) = .string "2017-01-01T00:00:00Z" := rfl
    have huntil : start.unitsUntil (.ofDate ⟨2017, 1, 1⟩) .seconds = 0 := by decide
    exact ⟨htext ▸ addToDate_adding hstart hname hplus,
      huntil ▸ dateDiff_counting hstart hgoal hname⟩

end Dates
end Dialogue
