import Dialogue.Calendar.Pattern

/-!
# Parts of a moment

What a text says about a moment: the numbers that it names, collected one by one.  A
number that is named twice has to be the same both times.  The parts determine a date if
they give a year with a month and a day, with a place in the year, or with a week and a
weekday, and if everything else they give agrees with that date.
-/

namespace Dialogue
namespace Calendar

/-- The numbers that a text has named so far. -/
structure Parts where
  year : Option Int := none
  century : Option Int := none
  yearOfCentury : Option Int := none
  isoYear : Option Int := none
  isoYearOfCentury : Option Int := none
  quarter : Option Int := none
  month : Option Int := none
  day : Option Int := none
  dayOfYear : Option Int := none
  weekFromSunday : Option Int := none
  weekFromMonday : Option Int := none
  isoWeek : Option Int := none
  weekday : Option Int := none
  afternoon : Option Bool := none
  hourOfHalf : Option Int := none
  minute : Option Int := none
  second : Option Int := none
  nanosecond : Option Int := none
  timestamp : Option Int := none
  offset : Option Int := none
deriving DecidableEq, Repr

/-- Why parts do not determine a moment. -/
inductive Undetermined where
  | incomplete
  | contradictory
deriving DecidableEq, Repr

/-- Adds a value to what is known, if it does not contradict it. -/
def note? [DecidableEq α] (known : Option α) (value : α) : Option (Option α) :=
  match known with
  | none => some (some value)
  | some old => if old = value then some (some value) else none

/-- A number, if it is in a range. -/
def within? (least greatest n : Int) : Option Int :=
  if least ≤ n ∧ n ≤ greatest then some n else none

/-- Whether a value agrees with what is known. -/
def agrees [DecidableEq α] (known : Option α) (value : α) : Bool :=
  match known with
  | none => true
  | some old => old = value

namespace Parts

/-- Notes a half of the day. -/
def noteHalf? (p : Parts) (afternoon : Bool) : Option Parts := do
  let afternoon ← note? p.afternoon afternoon
  some { p with afternoon }

/-- Notes a weekday, counted from Monday. -/
def noteWeekday? (p : Parts) (n : Int) : Option Parts := do
  let weekday ← note? p.weekday n
  some { p with weekday }

/-- Notes an hour of the day. -/
def noteHour? (p : Parts) (n : Int) : Option Parts := do
  let n ← within? 0 23 n
  let p ← p.noteHalf? (12 ≤ n)
  let hourOfHalf ← note? p.hourOfHalf (n % 12)
  some { p with hourOfHalf }

/-- Notes an offset in seconds. -/
def noteOffset? (p : Parts) (n : Int) : Option Parts := do
  let offset ← note? p.offset n
  some { p with offset }

/-- Notes a number, if it is in its range and agrees with what is known. -/
def note? (p : Parts) (item : NumberItem) (n : Int) : Option Parts :=
  match item with
  | .year => do
    let year ← Calendar.note? p.year n
    some { p with year }
  | .century => do
    let century ← Calendar.note? p.century n
    some { p with century }
  | .yearOfCentury => do
    let yearOfCentury ← Calendar.note? p.yearOfCentury n
    some { p with yearOfCentury }
  | .isoYear => do
    let isoYear ← Calendar.note? p.isoYear n
    some { p with isoYear }
  | .isoYearOfCentury => do
    let isoYearOfCentury ← Calendar.note? p.isoYearOfCentury n
    some { p with isoYearOfCentury }
  | .quarter => do
    let quarter ← Calendar.note? p.quarter (← within? 1 4 n)
    some { p with quarter }
  | .month => do
    let month ← Calendar.note? p.month (← within? 1 12 n)
    some { p with month }
  | .day => do
    let day ← Calendar.note? p.day (← within? 1 31 n)
    some { p with day }
  | .dayOfYear => do
    let dayOfYear ← Calendar.note? p.dayOfYear (← within? 1 366 n)
    some { p with dayOfYear }
  | .weekFromSunday => do
    let weekFromSunday ← Calendar.note? p.weekFromSunday (← within? 0 53 n)
    some { p with weekFromSunday }
  | .weekFromMonday => do
    let weekFromMonday ← Calendar.note? p.weekFromMonday (← within? 0 53 n)
    some { p with weekFromMonday }
  | .isoWeek => do
    let isoWeek ← Calendar.note? p.isoWeek (← within? 1 53 n)
    some { p with isoWeek }
  | .daysFromSunday => do
    let n ← within? 0 6 n
    p.noteWeekday? ((n + 6) % 7)
  | .dayFromMonday => do
    let n ← within? 1 7 n
    p.noteWeekday? (n - 1)
  | .hour => p.noteHour? n
  | .hourOfHalf => do
    let n ← within? 1 12 n
    let hourOfHalf ← Calendar.note? p.hourOfHalf (n % 12)
    some { p with hourOfHalf }
  | .minute => do
    let minute ← Calendar.note? p.minute (← within? 0 59 n)
    some { p with minute }
  | .second => do
    let second ← Calendar.note? p.second (← within? 0 60 n)
    some { p with second }
  | .nanosecond => do
    let nanosecond ← Calendar.note? p.nanosecond n
    some { p with nanosecond }
  | .timestamp => do
    let timestamp ← Calendar.note? p.timestamp n
    some { p with timestamp }

/-- The full year.  A year of the century alone lies between 1970 and 2069, and parts of
a year go only with years from 0. -/
def fullYear (year century yearOfCentury : Option Int) : Except Undetermined (Option Int) :=
  match year, century, yearOfCentury with
  | year, none, none => .ok year
  | some year, century, yearOfCentury =>
    if year ≥ 0 ∧ agrees century (year / 100) ∧ agrees yearOfCentury (year % 100) then
      .ok (some year)
    else .error .contradictory
  | none, some century, some yearOfCentury => .ok (some (century * 100 + yearOfCentury))
  | none, none, some yearOfCentury =>
    .ok (some (yearOfCentury + if yearOfCentury < 70 then 2000 else 1900))
  | none, some _, none => .error .incomplete

/-- Whether a year agrees with its parts. -/
def agreesYear (known century yearOfCentury : Option Int) (year : Int) : Bool :=
  agrees known year &&
    (if year ≥ 0 then agrees century (year / 100) && agrees yearOfCentury (year % 100)
      else century.isNone && yearOfCentury.isNone)

/-- Whether a date agrees with every part that speaks of dates. -/
def agreesDate (p : Parts) (d : Date) : Bool :=
  agreesYear p.year p.century p.yearOfCentury d.year &&
    agreesYear p.isoYear none p.isoYearOfCentury d.isoYear &&
    agrees p.quarter d.quarter && agrees p.month d.month && agrees p.day d.day &&
    agrees p.dayOfYear d.dayOfYear && agrees p.weekFromSunday (d.week 6) &&
    agrees p.weekFromMonday (d.week 0) && agrees p.isoWeek d.isoWeek &&
    agrees p.weekday d.weekday

/-- The date of a weekday in a week of a year, where weeks begin on `start`. -/
def dateOfWeek? (year : Int) (start : Nat) (week weekday : Int) : Option Date :=
  let first : Date := { year, month := 1, day := 1 }
  let firstStart : Int := (7 - first.daysSince start : Nat) % 7 + 1
  let dayOfYear := firstStart + (week - 1) * 7 + (weekday + 7 - start) % 7
  if dayOfYear ≥ 1 ∧ first.isValid then Date.ofDayOfYear? year dayOfYear.toNat else none

/-- The date that the parts point to, not yet compared with the others; the outer `none`
says that nothing points to one. -/
def pointed? (p : Parts) (year isoYear : Option Int) : Option (Option Date) :=
  match year, p.month, p.day with
  | some year, some month, some day => some (Date.ofCivil? year month.toNat day.toNat)
  | _, _, _ =>
    match year, p.dayOfYear with
    | some year, some dayOfYear => some (Date.ofDayOfYear? year dayOfYear.toNat)
    | _, _ =>
      match year, p.weekFromSunday, p.weekday with
      | some year, some week, some weekday => some (dateOfWeek? year 6 week weekday)
      | _, _, _ =>
        match year, p.weekFromMonday, p.weekday with
        | some year, some week, some weekday => some (dateOfWeek? year 0 week weekday)
        | _, _, _ =>
          match isoYear, p.isoWeek, p.weekday with
          | some year, some week, some weekday =>
            some (Date.ofIsoWeek? year week.toNat weekday.toNat)
          | _, _, _ => none

/-- The date that the parts determine. -/
def date (p : Parts) : Except Undetermined Date := do
  let year ← fullYear p.year p.century p.yearOfCentury
  let isoYear ← fullYear p.isoYear none p.isoYearOfCentury
  match p.pointed? year isoYear with
  | none => .error .incomplete
  | some none => .error .contradictory
  | some (some d) => if p.agreesDate d then .ok d else .error .contradictory

/-- The time of day that the parts determine, as seconds and nanoseconds.  A second that
is not named is 0, and second 60 is a leap second. -/
def time (p : Parts) : Except Undetermined (Nat × Nat) :=
  match p.afternoon, p.hourOfHalf, p.minute with
  | some afternoon, some hour, some minute =>
    let minutes := ((if afternoon then 12 else 0) + hour.toNat) * 60 + minute.toNat
    match p.second, p.nanosecond with
    | none, some _ => .error .incomplete
    | second, nanosecond =>
      let second := (second.getD 0).toNat
      let nano := (nanosecond.getD 0).toNat
      if second = 60 then .ok (minutes * 60 + 59, secondNanos + nano)
      else .ok (minutes * 60 + second, nano)
  | _, _, _ => .error .incomplete

/-- The parts filled up from a timestamp.  A leap second counts as the last second of its
minute or as the first of the next. -/
def fillFrom? (p : Parts) (timestamp : Int) : Option Parts := do
  let m ← Moment.ofTimestamp? timestamp
  let (p, m) ←
    if p.second = some 60 then
      if m.secondOfMinute = 59 then some (p, m)
      else if m.secondOfMinute = 0 then (Moment.ofTimestamp? (timestamp - 1)).map fun m => (p, m)
      else none
    else (p.note? .second m.secondOfMinute).map fun p => (p, m)
  let p ← p.note? .year m.date.year
  let p ← p.note? .dayOfYear m.date.dayOfYear
  let p ← p.noteHour? m.hour
  p.note? .minute m.minute

/-- The moment of parts that determine both its date and its time. -/
def joined? (p : Parts) : Option Moment :=
  match p.date, p.time with
  | .ok date, .ok (second, nano) => some { date, second, nano }
  | _, _ => none

/-- Whether a timestamp is that of a moment; a leap second may count as either of its
neighbours. -/
def agreesTimestamp (p : Parts) (m : Moment) : Bool :=
  match p.timestamp with
  | none => true
  | some timestamp =>
    timestamp == m.timestamp || (m.isLeapSecond && timestamp == m.timestamp + 1)

/-- The moment that the parts determine, read as universal time.  A timestamp fills in
what is missing, but mends no contradiction. -/
def moment? (p : Parts) : Option Moment :=
  match p.date, p.time, p.timestamp with
  | .ok date, .ok (second, nano), _ =>
    let m : Moment := { date, second, nano }
    if p.agreesTimestamp m then some m else none
  | .error .contradictory, _, _ => none
  | _, .error .contradictory, _ => none
  | _, _, none => none
  | _, _, some timestamp => (p.fillFrom? timestamp).bind joined?

end Parts
end Calendar
end Dialogue
