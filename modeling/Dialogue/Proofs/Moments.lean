import Mathlib
import Dialogue.Functions.Dates
import Dialogue.Proofs.Days

/-!
# Moments that exist

A moment is given by a date and a time of day, and both can fail to exist.  `Moment.Exists` says
what the calendar and the clock require: a date in the range of years, a second of the day, and a
nanosecond part beyond the full second only in the last second of a minute.

Every moment that a value spells exists (`Moment.exists_of_ofValue?`).  For a text this follows the
parts that are noted while it is read: each number is in its range when it is noted
(`Parts.Sound.note?`), every item of a pattern keeps that (`PatternItem.sound_read?`), and parts
that are in range make a moment that exists (`Parts.exists_moment?`).

The moments that exist stand in one row, by their seconds since 1970 and then by their nanoseconds,
and `Moment.isBefore` is their order (`Moment.isBefore_iff`).
-/

namespace Dialogue
namespace Calendar

/-- What succeeds in two steps succeeds in both. -/
theorem exists_of_except_bind {ε α β : Type} {x : Except ε α} {f : α → Except ε β} {b : β}
    (h : (x >>= f) = .ok b) : ∃ a, x = .ok a ∧ f a = .ok b := by
  cases x with
  | error => cases h
  | ok a => exact ⟨a, rfl, h⟩

namespace Moment

/-- A moment that the calendar and the clock have. -/
structure Exists (m : Moment) : Prop where
  date : m.date.isValid = true
  second : m.second < daySeconds
  nano : m.nano < 2 * secondNanos
  leap : secondNanos ≤ m.nano → m.second % 60 = 59

theorem exists_ofDate {d : Date} (h : d.isValid = true) : (ofDate d).Exists where
  date := h
  second := (by decide : 0 < daySeconds)
  nano := (by decide : 0 < 2 * secondNanos)
  leap := fun hleap => absurd hleap (by decide : ¬ secondNanos ≤ 0)

theorem exists_ofNanos? {n : Int} {m : Moment} (h : ofNanos? n = some m) : m.Exists := by
  unfold ofNanos? at h
  split at h
  · obtain rfl := Option.some_inj.1 h
    have hdate : (ofNanos n).date.isValid = true := ‹_›
    have hnano : (ofNanos n).nano < secondNanos := Nat.mod_lt _ (by decide)
    have hsecond : (ofNanos n).second < daySeconds := by
      simp only [ofNanos, daySeconds, secondNanos]
      omega
    exact ⟨hdate, hsecond, by omega, by omega⟩
  · cases h

/-- A whole number of minutes keeps a leap second at the end of its minute. -/
theorem exists_minusOffset? {m shifted : Moment} (hm : m.Exists) {offset : Int}
    (hoffset : offset % 60 = 0) (h : m.minusOffset? offset = some shifted) : shifted.Exists := by
  obtain ⟨date, hdate, rfl⟩ := Option.map_eq_some_iff.1 h
  have hmod : ((m.timestamp - offset) % daySeconds).toNat < daySeconds ∧
      ((m.timestamp - offset) % daySeconds).toNat % 60 = m.second % 60 := by
    simp only [timestamp, daySeconds]
    omega
  exact ⟨(Date.ofNumber?_eq_some_iff.1 hdate).1, hmod.1, hm.nano, fun hleap =>
    hmod.2.trans (hm.leap hleap)⟩

theorem shiftMonths?_eq_some_iff {m shifted : Moment} {months : Int} :
    m.shiftMonths? months = some shifted ↔
      shifted = { m with date := shifted.date } ∧
        m.date.shiftMonths? months = some shifted.date := by
  rw [shiftMonths?, Option.map_eq_some_iff]
  constructor
  · rintro ⟨date, hdate, rfl⟩
    exact ⟨rfl, hdate⟩
  · rintro ⟨hshifted, hdate⟩
    exact ⟨_, hdate, hshifted.symm⟩

theorem exists_shiftMonths? {m shifted : Moment} (hm : m.Exists) {months : Int}
    (h : m.shiftMonths? months = some shifted) : shifted.Exists := by
  obtain ⟨hshifted, hdate⟩ := shiftMonths?_eq_some_iff.1 h
  have hvalid := Date.ofCivil?_eq_some_iff.1 hdate
  rw [hshifted]
  exact ⟨hvalid.1 ▸ hvalid.2, hm.second, hm.nano, hm.leap⟩

end Moment

/-! ## Parts in range -/

/-- What has been noted in a place stands there. -/
theorem eq_of_noted {α β : Type} [DecidableEq α] {known : Option α} {value : α}
    {put : Option α → β} {b : β}
    (h : ((note? known value).bind fun noted => some (put noted)) = some b) :
    b = put (some value) := by
  obtain ⟨noted, hnoted, hb⟩ := Option.bind_eq_some_iff.1 h
  obtain rfl := Option.some_inj.1 hb
  unfold note? at hnoted
  split at hnoted
  · exact congrArg put (Option.some_inj.1 hnoted).symm
  · split at hnoted
    · exact congrArg put (Option.some_inj.1 hnoted).symm
    · cases hnoted

theorem within?_eq_some_iff {least greatest n m : Int} :
    within? least greatest n = some m ↔ m = n ∧ least ≤ n ∧ n ≤ greatest := by
  unfold within?
  split
  · rename_i hrange
    rw [Option.some_inj]
    exact ⟨fun h => ⟨h.symm, hrange⟩, fun h => h.1.symm⟩
  · rename_i hrange
    simp [hrange]

namespace Parts

/-- The parts of a time of day that have been noted are in their ranges. -/
structure Sound (p : Parts) : Prop where
  hourOfHalf : ∀ n ∈ p.hourOfHalf, 0 ≤ n ∧ n < 12
  minute : ∀ n ∈ p.minute, 0 ≤ n ∧ n < 60
  second : ∀ n ∈ p.second, 0 ≤ n ∧ n ≤ 60
  nanosecond : ∀ n ∈ p.nanosecond, 0 ≤ n ∧ n < secondNanos
  offset : ∀ n ∈ p.offset, n % 60 = 0

theorem sound_empty : ({} : Parts).Sound := ⟨nofun, nofun, nofun, nofun, nofun⟩

namespace Sound

variable {p q : Parts}

theorem noteHalf? (hp : p.Sound) {afternoon : Bool} (h : p.noteHalf? afternoon = some q) :
    q.Sound := by
  obtain rfl := eq_of_noted h
  exact ⟨hp.hourOfHalf, hp.minute, hp.second, hp.nanosecond, hp.offset⟩

theorem noteWeekday? (hp : p.Sound) {n : Int} (h : p.noteWeekday? n = some q) : q.Sound := by
  obtain rfl := eq_of_noted h
  exact ⟨hp.hourOfHalf, hp.minute, hp.second, hp.nanosecond, hp.offset⟩

theorem noteOffset? (hp : p.Sound) {n : Int} (hn : n % 60 = 0)
    (h : p.noteOffset? n = some q) : q.Sound := by
  obtain rfl := eq_of_noted h
  exact ⟨hp.hourOfHalf, hp.minute, hp.second, hp.nanosecond, by simpa using hn⟩

theorem noteHour? (hp : p.Sound) {n : Int} (h : p.noteHour? n = some q) : q.Sound := by
  obtain ⟨_, _, h⟩ := Option.bind_eq_some_iff.1 h
  obtain ⟨half, hhalf, h⟩ := Option.bind_eq_some_iff.1 h
  obtain rfl := eq_of_noted h
  have hsound := hp.noteHalf? hhalf
  exact ⟨by simp; omega, hsound.minute, hsound.second, hsound.nanosecond, hsound.offset⟩

/-- A number is in its range when it is noted; nanoseconds are so by the number of their digits. -/
theorem note? (hp : p.Sound) {item : NumberItem} {n : Int}
    (hn : item = .nanosecond → 0 ≤ n ∧ n < secondNanos) (h : p.note? item n = some q) :
    q.Sound := by
  cases item with
  | daysFromSunday | dayFromMonday =>
      obtain ⟨_, _, h⟩ := Option.bind_eq_some_iff.1 h
      exact hp.noteWeekday? h
  | hour => exact hp.noteHour? h
  | hourOfHalf =>
      obtain ⟨_, _, h⟩ := Option.bind_eq_some_iff.1 h
      obtain rfl := eq_of_noted h
      exact ⟨by simp; omega, hp.minute, hp.second, hp.nanosecond, hp.offset⟩
  | minute =>
      obtain ⟨_, hwithin, h⟩ := Option.bind_eq_some_iff.1 h
      obtain rfl := eq_of_noted h
      have hrange := within?_eq_some_iff.1 hwithin
      exact ⟨hp.hourOfHalf, by simp; omega, hp.second, hp.nanosecond, hp.offset⟩
  | second =>
      obtain ⟨_, hwithin, h⟩ := Option.bind_eq_some_iff.1 h
      obtain rfl := eq_of_noted h
      have hrange := within?_eq_some_iff.1 hwithin
      exact ⟨hp.hourOfHalf, hp.minute, by simp; omega, hp.nanosecond, hp.offset⟩
  | nanosecond =>
      obtain rfl := eq_of_noted h
      exact ⟨hp.hourOfHalf, hp.minute, hp.second, by simpa using hn rfl, hp.offset⟩
  | year | century | yearOfCentury | isoYear | isoYearOfCentury | timestamp =>
      obtain rfl := eq_of_noted h
      exact ⟨hp.hourOfHalf, hp.minute, hp.second, hp.nanosecond, hp.offset⟩
  | quarter | month | day | dayOfYear | weekFromSunday | weekFromMonday | isoWeek =>
      obtain ⟨_, _, h⟩ := Option.bind_eq_some_iff.1 h
      obtain rfl := eq_of_noted h
      exact ⟨hp.hourOfHalf, hp.minute, hp.second, hp.nanosecond, hp.offset⟩

end Sound

/-- A time in range is one that the clock has. -/
theorem exists_time {p : Parts} (hp : p.Sound) {d : Date} (hd : d.isValid = true)
    {second nano : Nat} (h : p.time = .ok (second, nano)) :
    ({ date := d, second, nano } : Moment).Exists := by
  unfold time at h
  split at h
  · rename_i afternoon hour minute hafternoon hhour hminute
    have hhour' := hp.hourOfHalf hour hhour
    have hminute' := hp.minute minute hminute
    have hminutes : ((if afternoon then 12 else 0) + hour.toNat) * 60 + minute.toNat < 1440 := by
      split <;> omega
    generalize ((if afternoon then 12 else 0) + hour.toNat) * 60 + minute.toNat = minutes at *
    dsimp only at h
    split at h
    · cases h
    · have hsecond : ((p.second.getD 0).toNat) ≤ 60 := by
        cases hs : p.second with
        | none => simp
        | some n => have := hp.second n hs; simp; omega
      have hnano : ((p.nanosecond.getD 0).toNat) < secondNanos := by
        cases hn : p.nanosecond with
        | none => simp [secondNanos]
        | some n => have := hp.nanosecond n hn; simp; omega
      split at h
      · obtain ⟨rfl, rfl⟩ := Prod.mk.inj (Except.ok.inj h)
        exact ⟨hd, by simp only [daySeconds]; omega, by simp only; omega, fun _ => by
          simp only; omega⟩
      · obtain ⟨rfl, rfl⟩ := Prod.mk.inj (Except.ok.inj h)
        exact ⟨hd, by simp only [daySeconds]; omega, by simp only; omega, fun hleap => by
          simp only at hleap; omega⟩
  · cases h

theorem isValid_of_ofCivil? {year : Int} {month day : Nat} {d : Date}
    (h : Date.ofCivil? year month day = some d) : d.isValid = true := by
  obtain ⟨rfl, hvalid⟩ := Date.ofCivil?_eq_some_iff.1 h
  exact hvalid

theorem isValid_of_ofDayOfYear? {year : Int} {dayOfYear : Nat} {d : Date}
    (h : Date.ofDayOfYear? year dayOfYear = some d) : d.isValid = true := by
  unfold Date.ofDayOfYear? at h
  dsimp only at h
  split at h
  · split at h
    · obtain rfl := Option.some_inj.1 h
      assumption
    · cases h
  · cases h

theorem isValid_of_ofNumber? {n : Int} {d : Date} (h : Date.ofNumber? n = some d) :
    d.isValid = true :=
  (Date.ofNumber?_eq_some_iff.1 h).1

theorem isValid_of_dateOfWeek? {year week weekday : Int} {start : Nat} {d : Date}
    (h : dateOfWeek? year start week weekday = some d) : d.isValid = true := by
  unfold dateOfWeek? at h
  dsimp only at h
  split at h
  · exact isValid_of_ofDayOfYear? h
  · cases h

theorem isValid_of_ofIsoWeek? {year : Int} {week weekday : Nat} {d : Date}
    (h : Date.ofIsoWeek? year week weekday = some d) : d.isValid = true := by
  unfold Date.ofIsoWeek? at h
  dsimp only at h
  split at h
  · exact isValid_of_ofNumber? h
  · cases h

/-- Whatever parts point to a date, it is one of the calendar. -/
theorem isValid_of_pointed? {p : Parts} {year isoYear : Option Int} {d : Date}
    (h : p.pointed? year isoYear = some (some d)) : d.isValid = true := by
  unfold pointed? at h
  split at h
  · exact isValid_of_ofCivil? (Option.some_inj.1 h)
  · split at h
    · exact isValid_of_ofDayOfYear? (Option.some_inj.1 h)
    · split at h
      · exact isValid_of_dateOfWeek? (Option.some_inj.1 h)
      · split at h
        · exact isValid_of_dateOfWeek? (Option.some_inj.1 h)
        · split at h
          · exact isValid_of_ofIsoWeek? (Option.some_inj.1 h)
          · cases h

theorem isValid_date {p : Parts} {d : Date} (h : p.date = .ok d) : d.isValid = true := by
  obtain ⟨year, _, h⟩ := exists_of_except_bind h
  obtain ⟨isoYear, _, h⟩ := exists_of_except_bind h
  split at h
  · cases h
  · cases h
  · split at h
    · obtain rfl := Except.ok.inj h
      exact isValid_of_pointed? ‹_›
    · cases h

theorem exists_joined? {p : Parts} (hp : p.Sound) {m : Moment} (h : p.joined? = some m) :
    m.Exists := by
  unfold joined? at h
  split at h
  · obtain rfl := Option.some_inj.1 h
    exact exists_time hp (isValid_date ‹_›) ‹_›
  · cases h

/-- What a timestamp fills in is noted like what a text names. -/
theorem Sound.fillFrom? {p q : Parts} (hp : p.Sound) {timestamp : Int}
    (h : p.fillFrom? timestamp = some q) : q.Sound := by
  have hlater {noted : Parts} {m : Moment} (hnoted : noted.Sound)
      (h : (do
        let p ← noted.note? .year m.date.year
        let p ← p.note? .dayOfYear m.date.dayOfYear
        let p ← p.noteHour? m.hour
        p.note? .minute m.minute) = some q) : q.Sound := by
    obtain ⟨_, hyear, h⟩ := Option.bind_eq_some_iff.1 h
    obtain ⟨_, hday, h⟩ := Option.bind_eq_some_iff.1 h
    obtain ⟨_, hhour, hminute⟩ := Option.bind_eq_some_iff.1 h
    have hdate := (hnoted.note? (by simp) hyear).note? (by simp) hday
    exact (hdate.noteHour? hhour).note? (by simp) hminute
  obtain ⟨m, _, h⟩ := Option.bind_eq_some_iff.1 h
  dsimp only at h
  split at h
  · split at h
    · exact hlater hp h
    · split at h
      · obtain ⟨_, hearlier, h⟩ := Option.bind_eq_some_iff.1 h
        obtain ⟨_, _, rfl⟩ := Option.map_eq_some_iff.1 hearlier
        exact hlater hp h
      · cases h
  · obtain ⟨_, hsecond, h⟩ := Option.bind_eq_some_iff.1 h
    obtain ⟨_, hnote, rfl⟩ := Option.map_eq_some_iff.1 hsecond
    exact hlater (hp.note? (by simp) hnote) h

/-- Parts in range make a moment that exists. -/
theorem exists_moment? {p : Parts} (hp : p.Sound) {m : Moment} (h : p.moment? = some m) :
    m.Exists := by
  unfold moment? at h
  split at h
  · dsimp only at h
    split at h
    · obtain rfl := Option.some_inj.1 h
      exact exists_time hp (isValid_date ‹_›) ‹_›
    · cases h
  · cases h
  · cases h
  · cases h
  · obtain ⟨filled, hfilled, h⟩ := Option.bind_eq_some_iff.1 h
    exact exists_joined? (hp.fillFrom? hfilled) h

end Parts

/-! ## Reading -/

namespace Reading

open Parts

theorem ofDigits_lt {start : Nat} {run : List Char} (h : run.all Char.isDigit = true) :
    Decimal.ofDigits start run < (start + 1) * 10 ^ run.length := by
  induction run generalizing start with
  | nil => simp [Decimal.ofDigits]
  | cons c run ih =>
      rw [List.all_cons, Bool.and_eq_true] at h
      have hvalue : Decimal.digitValue c ≤ 9 := by
        have hdigit := h.1
        simp only [Char.isDigit, Bool.and_eq_true, decide_eq_true_eq] at hdigit
        have : c.toNat ≤ 57 := UInt32.le_iff_toNat_le.1 hdigit.2
        have : '0'.toNat = 48 := rfl
        simp only [Decimal.digitValue]
        omega
      calc Decimal.ofDigits start (c :: run)
          = Decimal.ofDigits (10 * start + Decimal.digitValue c) run := rfl
        _ < (10 * start + Decimal.digitValue c + 1) * 10 ^ run.length := ih h.2
        _ ≤ ((start + 1) * 10) * 10 ^ run.length := Nat.mul_le_mul_right _ (by omega)
        _ = (start + 1) * 10 ^ (c :: run).length := by rw [List.length_cons]; ring

/-- A run of digits that has been read stood at the front, and its number has no more digits. -/
theorem digits?_spec {width n : Nat} {cs rest : List Char} (h : digits? width cs = some (n, rest)) :
    ∃ run, cs = run ++ rest ∧ run.length ≤ width ∧ n < 10 ^ run.length := by
  obtain ⟨found, hfound, h⟩ := Option.bind_eq_some_iff.1 h
  unfold Decimal.digits? at hfound
  split at hfound
  · rename_i hrun
    obtain rfl := Option.some_inj.1 hfound
    obtain ⟨_, h⟩ := Option.ite_none_right_eq_some.1 h
    obtain ⟨rfl, rfl⟩ := Prod.mk.inj (Option.some_inj.1 h)
    have hfront : (cs.take width).takeWhile Char.isDigit <+: cs :=
      (List.takeWhile_prefix _).trans (List.take_prefix _ _)
    have hlength :=
      (List.takeWhile_prefix Char.isDigit).length_le.trans (List.length_take_le width cs)
    have hvalue := @ofDigits_lt 0 _ hrun.2
    rw [Nat.zero_add, Nat.one_mul] at hvalue
    exact ⟨_, (List.prefix_iff_eq_append.1 hfront).symm, hlength, hvalue⟩
  · cases hfound

/-- A fraction of a second is less than a second. -/
theorem fraction?_lt {cs rest : List Char} {nano : Nat} (h : fraction? cs = some (nano, rest)) :
    nano < secondNanos := by
  obtain ⟨⟨n, after⟩, hdigits, hnano⟩ := Option.map_eq_some_iff.1 h
  obtain ⟨run, rfl, hlength, hn⟩ := digits?_spec hdigits
  obtain ⟨rfl, _⟩ := Prod.mk.inj hnano
  have hplaces : (run ++ after).length - after.length = run.length := by simp
  rw [hplaces, Nat.pow_eq]
  calc n * 10 ^ (9 - run.length) < 10 ^ run.length * 10 ^ (9 - run.length) :=
        Nat.mul_lt_mul_of_pos_right hn (by positivity)
    _ = secondNanos := by rw [← pow_add, Nat.add_sub_cancel' hlength]; rfl

theorem exactDigits?_spec {width n : Nat} {cs rest : List Char}
    (h : exactDigits? width cs = some (n, rest)) : n < 10 ^ width := by
  obtain ⟨hdigits, hlength⟩ := Option.filter_eq_some_iff.1 h
  obtain ⟨run, rfl, _, hn⟩ := digits?_spec hdigits
  have hwidth : run.length = width := by
    simp at hlength
    omega
  exact hwidth ▸ hn

/-- What is noted of a reading stays in range. -/
theorem sound_noting {item : NumberItem} {p : Parts} {found : Nat × List Char} {r : Reading}
    (hp : p.Sound) (hn : item = .nanosecond → found.1 < secondNanos)
    (h : noting item p found = some r) : r.parts.Sound := by
  obtain ⟨q, hq, rfl⟩ := Option.map_eq_some_iff.1 h
  exact hp.note? (fun hitem => by have := hn hitem; omega) hq

theorem sound_pointFraction? {r after : Reading} {read : List Char → Option (Nat × List Char)}
    (hread : ∀ {cs nano rest}, read cs = some (nano, rest) → nano < secondNanos)
    (hr : r.parts.Sound) (h : r.pointFraction? read = some after) : after.parts.Sound := by
  unfold pointFraction? at h
  split at h
  · obtain ⟨found, hfound, h⟩ := Option.bind_eq_some_iff.1 h
    exact sound_noting hr (fun _ => hread hfound) h
  · obtain rfl := Option.some_inj.1 h
    exact hr

theorem sound_number? {item : NumberItem} {r after : Reading} (hr : r.parts.Sound)
    (h : number? item r = some after) : after.parts.Sound := by
  unfold number? at h
  dsimp only at h
  split at h
  · rename_i hsigned _
    obtain ⟨⟨n, rest⟩, _, h⟩ := Option.bind_eq_some_iff.1 h
    obtain ⟨q, hq, rfl⟩ := Option.map_eq_some_iff.1 h
    exact hr.note? (by rintro rfl; cases hsigned) hq
  · rename_i hsigned _
    obtain ⟨found, _, h⟩ := Option.bind_eq_some_iff.1 h
    exact sound_noting hr (by rintro rfl; cases hsigned) h
  · obtain ⟨⟨n, rest⟩, hdigits, h⟩ := Option.bind_eq_some_iff.1 h
    refine sound_noting hr ?_ h
    rintro rfl
    -- nine digits are a fraction of a second
    obtain ⟨run, _, hlength, hn⟩ := digits?_spec hdigits
    exact hn.trans_le (Nat.pow_le_pow_right (by decide) hlength)

theorem sound_literal? {c : Char} {r after : Reading} (h : literal? c r = some after)
    (hr : r.parts.Sound) : after.parts.Sound := by
  unfold literal? at h
  split at h
  · split at h
    · obtain rfl := Option.some_inj.1 h
      exact hr
    · cases h
  · cases h

theorem sound_fixedWidth? {item : NumberItem} {width : Nat} {r after : Reading}
    (h : fixedWidth? item width r = some after) (hitem : item ≠ .nanosecond)
    (hr : r.parts.Sound) : after.parts.Sound := by
  obtain ⟨found, _, h⟩ := Option.bind_eq_some_iff.1 h
  exact sound_noting hr (fun hnano => absurd hnano hitem) h

/-- Offsets are whole minutes. -/
theorem offset?_emod {rule : OffsetRule} {cs rest : List Char} {seconds : Int}
    (h : offset? rule cs = some (seconds, rest)) : seconds % 60 = 0 := by
  unfold offset? at h
  split at h
  · obtain ⟨rfl, _⟩ := Prod.mk.inj (Option.some_inj.1 h)
    rfl
  · obtain ⟨⟨negative, _⟩, _, h⟩ := Option.bind_eq_some_iff.1 h
    obtain ⟨⟨hours, _⟩, _, h⟩ := Option.bind_eq_some_iff.1 h
    obtain ⟨_, _, h⟩ := Option.bind_eq_some_iff.1 h
    obtain ⟨⟨minutes, _⟩, _, h⟩ := Option.bind_eq_some_iff.1 h
    obtain ⟨rfl, _⟩ := Prod.mk.inj (Option.some_inj.1 h)
    split <;> omega

/-- The standard form notes parts in range. -/
theorem sound_standard? {r after : Reading} (hr : r.parts.Sound)
    (h : r.standard? = some after) : after.parts.Sound := by
  obtain ⟨_, hyear, h⟩ := Option.bind_eq_some_iff.1 h
  obtain ⟨_, hdash, h⟩ := Option.bind_eq_some_iff.1 h
  obtain ⟨_, hmonth, h⟩ := Option.bind_eq_some_iff.1 h
  obtain ⟨_, hdash', h⟩ := Option.bind_eq_some_iff.1 h
  obtain ⟨_, hday, h⟩ := Option.bind_eq_some_iff.1 h
  obtain ⟨_, _, h⟩ := Option.bind_eq_some_iff.1 h
  obtain ⟨_, hhour, h⟩ := Option.bind_eq_some_iff.1 h
  obtain ⟨_, hcolon, h⟩ := Option.bind_eq_some_iff.1 h
  obtain ⟨_, hminute, h⟩ := Option.bind_eq_some_iff.1 h
  obtain ⟨_, hcolon', h⟩ := Option.bind_eq_some_iff.1 h
  obtain ⟨_, hsecond, h⟩ := Option.bind_eq_some_iff.1 h
  obtain ⟨_, hfraction, h⟩ := Option.bind_eq_some_iff.1 h
  obtain ⟨⟨offset, _⟩, hoffset, h⟩ := Option.bind_eq_some_iff.1 h
  have hdate := sound_fixedWidth? hday (by decide) <| sound_literal? hdash' <|
    sound_fixedWidth? hmonth (by decide) <| sound_literal? hdash <|
      sound_fixedWidth? hyear (by decide) hr
  have htime := sound_fixedWidth? hsecond (by decide) <| sound_literal? hcolon' <|
    sound_fixedWidth? hminute (by decide) <| sound_literal? hcolon <|
      sound_fixedWidth? hhour (by decide) hdate
  have hwhole := sound_pointFraction? fraction?_lt htime hfraction
  dsimp only at h
  split at h
  · obtain ⟨q, hq, rfl⟩ := Option.map_eq_some_iff.1 h
    exact hwhole.noteOffset? (offset?_emod hoffset) hq
  · cases h

theorem sound_withOffset? {rule : OffsetRule} {r after : Reading} (hr : r.parts.Sound)
    (h : r.withOffset? rule = some after) : after.parts.Sound := by
  obtain ⟨⟨seconds, _⟩, hseconds, h⟩ := Option.bind_eq_some_iff.1 h
  obtain ⟨q, hq, rfl⟩ := Option.map_eq_some_iff.1 h
  exact hr.noteOffset? (offset?_emod hseconds) hq

theorem sound_month? {whole : Bool} {r after : Reading} (hr : r.parts.Sound)
    (h : month? whole r = some after) : after.parts.Sound := by
  obtain ⟨⟨index, _⟩, _, h⟩ := Option.bind_eq_some_iff.1 h
  exact sound_noting hr (by simp) h

theorem sound_weekday? {whole : Bool} {r after : Reading} (hr : r.parts.Sound)
    (h : weekday? whole r = some after) : after.parts.Sound := by
  obtain ⟨⟨index, _⟩, _, h⟩ := Option.bind_eq_some_iff.1 h
  exact sound_noting hr (by simp) h

theorem sound_half? {r after : Reading} (hr : r.parts.Sound) (h : r.half? = some after) :
    after.parts.Sound := by
  unfold half? at h
  dsimp only at h
  split_ifs at h
  all_goals
    obtain ⟨q, hq, rfl⟩ := Option.map_eq_some_iff.1 h
    exact hr.noteHalf? hq

theorem sound_chain? {separator : Char} {items : List NumberItem} {r after : Reading}
    (h : chain? separator items r = some after) (hr : r.parts.Sound) : after.parts.Sound := by
  fun_induction chain? separator items r with
  | case1 r =>
      obtain rfl := Option.some_inj.1 h
      exact hr
  | case2 r item => exact sound_number? hr h
  | case3 r item items hitems ih =>
      obtain ⟨_, hnumber, h⟩ := Option.bind_eq_some_iff.1 h
      obtain ⟨_, hliteral, h⟩ := Option.bind_eq_some_iff.1 h
      have hnoted := sound_number? hr hnumber
      exact ih _ h (sound_literal? hliteral hnoted)

theorem sound_full? {r after : Reading} (hr : r.parts.Sound) (h : r.full? = some after) :
    after.parts.Sound := by
  obtain ⟨_, hdate, h⟩ := Option.bind_eq_some_iff.1 h
  obtain ⟨_, _, h⟩ := Option.bind_eq_some_iff.1 h
  obtain ⟨_, htime, h⟩ := Option.bind_eq_some_iff.1 h
  obtain ⟨_, hfraction, h⟩ := Option.bind_eq_some_iff.1 h
  have hnoted := sound_chain? hdate hr
  have hwhole := sound_pointFraction? fraction?_lt (sound_chain? htime hnoted) hfraction
  dsimp only at h
  split at h
  · obtain ⟨q, hq, rfl⟩ := Option.map_eq_some_iff.1 h
    exact hwhole.noteOffset? rfl hq
  · exact sound_withOffset? (r := Reading.skipBlanks _) hwhole h

end Reading

/-- A fraction of a second has nine places at most. -/
def PatternItem.FitsSecond : PatternItem → Prop
  | fractionTo places | fractionDigits places => places ≤ 9
  | _ => True

theorem Reading.fractionDigits?_lt {places nano : Nat} {cs rest : List Char} (hplaces : places ≤ 9)
    (h : fractionDigits? places cs = some (nano, rest)) : nano < secondNanos := by
  obtain ⟨⟨n, after⟩, hdigits, hnano⟩ := Option.map_eq_some_iff.1 h
  obtain ⟨rfl, _⟩ := Prod.mk.inj hnano
  rw [Nat.pow_eq]
  calc n * 10 ^ (9 - places) < 10 ^ places * 10 ^ (9 - places) :=
        Nat.mul_lt_mul_of_pos_right (exactDigits?_spec hdigits) (by positivity)
    _ = secondNanos := by rw [← pow_add, Nat.add_sub_cancel' hplaces]; rfl

/-- What an item of a pattern notes is in range. -/
theorem PatternItem.sound_read? {item : PatternItem} (hitem : item.FitsSecond) {r after : Reading}
    (h : item.read? r = some after) (hr : r.parts.Sound) : after.parts.Sound := by
  cases item with
  | literal c => exact Reading.sound_literal? h hr
  | blank | zoneName =>
      obtain rfl := Option.some_inj.1 h
      exact hr
  | number item => exact Reading.sound_number? hr h
  | shortMonth | longMonth => exact Reading.sound_month? hr h
  | shortWeekday | longWeekday => exact Reading.sound_weekday? hr h
  | lowerHalf | upperHalf => exact Reading.sound_half? hr h
  | fraction => exact Reading.sound_pointFraction? Reading.fraction?_lt hr h
  | fractionTo places =>
      exact Reading.sound_pointFraction? (Reading.fractionDigits?_lt hitem) hr h
  | fractionDigits places =>
      obtain ⟨_, hdigits, h⟩ := Option.bind_eq_some_iff.1 h
      exact Reading.sound_noting hr (fun _ => Reading.fractionDigits?_lt hitem hdigits) h
  | offset form => cases form <;> exact Reading.sound_withOffset? hr h
  | full => exact Reading.sound_full? hr h

/-- So is what a whole pattern notes, item by item. -/
theorem Pattern.sound_foldlM_read? {pattern : Pattern}
    (hpattern : ∀ item ∈ pattern, item.FitsSecond) {r after : Reading}
    (h : pattern.foldlM PatternItem.read? r = some after) (hr : r.parts.Sound) : after.parts.Sound := by
  induction pattern generalizing r with
  | nil =>
      obtain rfl := Option.some_inj.1 h
      exact hr
  | cons item rest ih =>
      rw [List.foldlM_cons] at h
      obtain ⟨_, hitem, h⟩ := Option.bind_eq_some_iff.1 h
      rw [List.forall_mem_cons] at hpattern
      exact ih hpattern.2 h (PatternItem.sound_read? hpattern.1 hitem hr)

theorem Pattern.sound_parts? {pattern : Pattern} (hpattern : ∀ item ∈ pattern, item.FitsSecond)
    {text : String} {p : Parts} (h : pattern.parts? text = some p) : p.Sound := by
  obtain ⟨after, hread, h⟩ := Option.bind_eq_some_iff.1 h
  obtain ⟨_, hparts⟩ := Option.ite_none_right_eq_some.1 h
  obtain rfl := Option.some_inj.1 hparts
  exact sound_foldlM_read? hpattern hread Parts.sound_empty

namespace Moment

theorem exists_of_fullMoment? {pattern : Pattern} (hpattern : ∀ item ∈ pattern, item.FitsSecond)
    {text : String} {m : Moment} (h : pattern.fullMoment? text = some m) : m.Exists := by
  obtain ⟨p, hp, h⟩ := Option.bind_eq_some_iff.1 h
  exact Parts.exists_moment? (Pattern.sound_parts? hpattern hp) h

theorem fitsSecond_of_mem_dateTimePatterns {pattern : Pattern} (h : pattern ∈ dateTimePatterns)
    {item : PatternItem} (hitem : item ∈ pattern) : item.FitsSecond := by
  have hall : ∀ pattern ∈ dateTimePatterns, ∀ item ∈ pattern, item.FitsSecond := by
    simp [dateTimePatterns, Pattern.dashedDate, Pattern.time, Pattern.shortTime, Pattern.separated,
      Pattern.zeroed, PatternItem.FitsSecond]
  exact hall pattern h item hitem

theorem exists_of_ofStandard? {text : String} {m : Moment} (h : ofStandard? text = some m) :
    m.Exists := by
  obtain ⟨r, hr, h⟩ := Option.bind_eq_some_iff.1 h
  have hsound := Reading.sound_standard? Parts.sound_empty hr
  obtain ⟨_, h⟩ := Option.ite_none_right_eq_some.1 h
  obtain ⟨read, hread, h⟩ := Option.bind_eq_some_iff.1 h
  refine exists_minusOffset? (Parts.exists_moment? hsound hread) ?_ h
  cases hoffset : r.parts.offset with
  | none => rfl
  | some offset => exact hsound.offset offset hoffset

theorem exists_of_ofDateText? {text : String} {m : Moment} (h : ofDateText? text = some m) :
    m.Exists := by
  obtain ⟨p, _, h⟩ := Option.bind_eq_some_iff.1 h
  obtain ⟨d, hd, rfl⟩ := Option.map_eq_some_iff.1 h
  cases hdate : p.date with
  | error e => rw [hdate] at hd; cases hd
  | ok date =>
      rw [hdate] at hd
      obtain rfl := Option.some_inj.1 hd
      exact exists_ofDate (Parts.isValid_date hdate)

theorem exists_of_ofMillisFloat? {x : Float} {m : Moment} (h : ofMillisFloat? x = some m) :
    m.Exists := by
  obtain ⟨n, _, h⟩ := Option.bind_eq_some_iff.1 h
  exact exists_ofNanos? h

theorem exists_of_ofText? {text : String} {m : Moment} (h : ofText? text = some m) :
    m.Exists := by
  unfold ofText? at h
  dsimp only at h
  simp only [Option.or_eq_some_iff] at h
  rcases h with h | ⟨_, h | ⟨_, h | ⟨_, h⟩⟩⟩
  · exact exists_of_ofStandard? h
  · obtain ⟨pattern, hpattern, h⟩ := List.exists_of_findSome?_eq_some h
    exact exists_of_fullMoment? (fun _ => fitsSecond_of_mem_dateTimePatterns hpattern) h
  · exact exists_of_ofDateText? h
  · obtain ⟨_, _, h⟩ := Option.bind_eq_some_iff.1 h
    exact exists_of_ofMillisFloat? h

/-- Every moment that a value spells exists. -/
theorem exists_of_ofValue? {v : Value} {m : Moment} (h : ofValue? v = some m) : m.Exists := by
  unfold ofValue? at h
  split at h
  · exact exists_of_ofMillisFloat? h
  · exact exists_of_ofText? h
  · cases h

/-! ## Order -/

/-- The place of a moment in the row of all moments.  The moments of a leap second have the
timestamp of the second before it, and follow it. -/
def instant (m : Moment) : ℤ ×ₗ ℕ := toLex (m.timestamp, m.nano)

/-- Comparing months and then places in the month is comparing instants. -/
theorem isBefore_iff {a b : Moment} (ha : a.Exists) (hb : b.Exists) :
    a.isBefore b = true ↔ a.instant < b.instant := by
  have hdates := Date.number_lt_iff (Date.isValid_iff.1 ha.date).1 (Date.isValid_iff.1 hb.date).1
  have hdates' := Date.number_lt_iff (Date.isValid_iff.1 hb.date).1 (Date.isValid_iff.1 ha.date).1
  have hasecond := ha.second
  have hbsecond := hb.second
  have hanano := ha.nano
  have hbnano := hb.nano
  rw [isBefore, Bool.or_eq_true, Bool.and_eq_true, decide_eq_true_iff, decide_eq_true_iff,
    beq_iff_eq, instant, instant, Prod.Lex.toLex_lt_toLex]
  simp only [placeInMonth, timestamp, daySeconds, secondNanos] at *
  omega

end Moment
end Calendar

namespace Dates

open Calendar

theorem moment_eq_ok_iff {function name : String} {params : Fields} {m : Moment} :
    moment function params name = .ok m ↔
      ∃ raw, Parameters.given? params name = some raw ∧ Moment.ofValue? raw = some m := by
  rw [moment, Parameters.required]
  cases Parameters.given? params name with
  | none => simp [bind, Except.bind]
  | some raw =>
      simp only [bind, Except.bind, Option.some_inj, exists_eq_left']
      cases Moment.ofValue? raw <;> simp

theorem unit_eq_ok_iff {params : Fields} {span : TimeUnit} :
    unit params = .ok span ↔
      TimeUnit.ofName? ((Parameters.text? params "unit").getD "days") = some span := by
  rw [unit]
  cases TimeUnit.ofName? ((Parameters.text? params "unit").getD "days") <;> simp

/-- The moments that the functions work with exist. -/
theorem exists_moment {function name : String} {params : Fields} {m : Moment}
    (h : moment function params name = .ok m) : m.Exists := by
  obtain ⟨raw, -, hraw⟩ := moment_eq_ok_iff.1 h
  exact Moment.exists_of_ofValue? hraw

end Dates
end Dialogue
