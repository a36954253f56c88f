import Mathlib
import Dialogue.Proofs.Buttons
import Dialogue.Proofs.Moments
import Dialogue.Proofs.Templates

/-!
# Written moments

A moment is written to the second: the text leaves out what comes behind the full second, and keeps
a leap second as second 60.  `Moment.whole` is what remains, and for a year of four digits the text
is read back as that (`Moment.ofText?_text`).

The text is a row of numbers of fixed width with single characters between them, and it is read in
the same order.  A number that was filled up with zeros is read back from so many places, whatever
follows (`Reading.exactDigits?_padded`), and the parts that are noted on the way are those of the
moment (`Parts.moment?_ofMoment`).
-/

namespace Dialogue

namespace Decimal

theorem digits?_eq_some_iff {cs : List Char} {n : Nat} :
    digits? cs = some n ↔ cs ≠ [] ∧ cs.all Char.isDigit = true ∧ ofDigits 0 cs = n := by
  rw [digits?, Option.ite_none_right_eq_some, Option.some_inj, and_assoc]

/-- Zeros before a number do not change it. -/
theorem ofDigits_replicate_zero (count : Nat) (cs : List Char) :
    ofDigits 0 (List.replicate count '0' ++ cs) = ofDigits 0 cs := by
  rw [ofDigits_append]
  congr 1
  induction count with
  | zero => rfl
  | succ count ih => exact ih

theorem length_digitsOf_le {n width : Nat} (hwidth : 0 < width) (hn : n < 10 ^ width) :
    (digitsOf n).length ≤ width :=
  Nat.toDigits_length 10 n width hwidth hn

end Decimal

namespace Calendar

theorem padded_natCast (width n : Nat) :
    padded .zero width false n =
      List.replicate (width - (Decimal.digitsOf n).length) '0' ++ Decimal.digitsOf n := by
  have hpositive : ¬ (n : Int) < 0 := by omega
  simp [padded, hpositive]

theorem length_padded {width n : Nat} (hwidth : 0 < width) (hn : n < 10 ^ width) :
    (padded .zero width false n).length = width := by
  have := Decimal.length_digitsOf_le hwidth hn
  rw [padded_natCast, List.length_append, List.length_replicate]
  omega

theorem digits?_padded (width n : Nat) :
    Decimal.digits? (padded .zero width false n) = some n := by
  obtain ⟨hne, hdigits, hvalue⟩ := Decimal.digits?_eq_some_iff.1 (Decimal.digits?_digitsOf n)
  rw [padded_natCast, Decimal.digits?_eq_some_iff, Decimal.ofDigits_replicate_zero]
  refine ⟨by simp [hne], ?_, hvalue⟩
  rw [List.all_append, hdigits, Bool.and_true, List.all_replicate]
  simp

namespace Reading

/-- A number that was filled up with zeros is read back from its places. -/
theorem exactDigits?_padded {width n : Nat} (hwidth : 0 < width) (hn : n < 10 ^ width)
    (hlimit : 10 ^ width ≤ numberLimit) (rest : List Char) :
    exactDigits? width (padded .zero width false n ++ rest) = some (n, rest) := by
  have hlength := length_padded hwidth hn
  have hread := digits?_padded width n
  obtain ⟨-, hdigits, -⟩ := Decimal.digits?_eq_some_iff.1 hread
  have hrun : ((padded .zero width false n ++ rest).take width).takeWhile Char.isDigit =
      padded .zero width false n := by
    rw [List.take_append_of_le_length hlength.ge, List.take_of_length_le hlength.le,
      List.takeWhile_eq_self_iff.2 (List.all_eq_true.1 hdigits)]
  have hplaces : digits? width (padded .zero width false n ++ rest) = some (n, rest) := by
    unfold digits?
    simp only [hrun, hread, Option.bind_eq_bind, Option.bind_some, List.drop_left]
    rw [if_pos (by omega)]
  rw [exactDigits?, hplaces]
  simp [hlength, Nat.add_comm]

theorem fixedWidth?_padded {item : NumberItem} {width n : Nat} {p q : Parts} (hwidth : 0 < width)
    (hn : n < 10 ^ width) (hlimit : 10 ^ width ≤ numberLimit) (hnote : p.note? item n = some q)
    (rest : List Char) :
    fixedWidth? item width ⟨padded .zero width false n ++ rest, p⟩ = some ⟨rest, q⟩ := by
  rw [fixedWidth?]
  simp only [exactDigits?_padded hwidth hn hlimit rest, Option.bind_some, noting, hnote,
    Option.map_some]

theorem literal?_cons (c : Char) (rest : List Char) (p : Parts) :
    literal? c ⟨c :: rest, p⟩ = some ⟨rest, p⟩ := by
  simp [literal?]

end Reading

/-! ## The parts of a moment -/

theorem isBlank_of_isDigit {c : Char} (h : c.isDigit = true) : Text.isBlank c = false := by
  simp only [Char.isDigit, Bool.and_eq_true, decide_eq_true_eq] at h
  have hlow : 48 ≤ c.toNat := UInt32.le_iff_toNat_le.1 h.1
  have hhigh : c.toNat ≤ 57 := UInt32.le_iff_toNat_le.1 h.2
  simp only [Text.isBlank, Bool.or_eq_false_iff, Bool.and_eq_false_iff, decide_eq_false_iff_not,
    beq_eq_false_iff_ne]
  omega

namespace Moment

/-- A moment without what comes behind the full second. -/
def whole (m : Moment) : Moment := { m with nano := m.nano / secondNanos * secondNanos }

/-- The numbers that the text of a moment names. -/
def named (m : Moment) : Parts where
  year := some m.date.year
  month := some m.date.month
  day := some m.date.day
  afternoon := some (12 ≤ m.hour)
  hourOfHalf := some (m.hour % 12 : Nat)
  minute := some m.minute
  second := some m.secondOfMinute
  offset := some 0

variable {m : Moment}

theorem nano_cases (hm : m.Exists) :
    (m.nano / secondNanos = 0 ∧ m.nano < secondNanos) ∨
      (m.nano / secondNanos = 1 ∧ secondNanos ≤ m.nano ∧ m.second % 60 = 59) := by
  have hnano := hm.nano
  have hleap := hm.leap
  simp only [secondNanos] at *
  omega

/-- The parts that a moment names determine its date. -/
theorem date_named (hm : m.Exists) : m.named.date = .ok m.date := by
  have hcivil : Date.ofCivil? m.date.year m.date.month m.date.day = some m.date :=
    Date.ofCivil?_eq_some_iff.2 ⟨rfl, hm.date⟩
  simp [Parts.date, named, Parts.fullYear, Parts.pointed?, hcivil, Parts.agreesDate,
    Parts.agreesYear, agrees, bind, Except.bind]

/-- The parts that a moment names determine its time, to the second. -/
theorem time_named (hm : m.Exists) : m.named.time = .ok (m.second, m.whole.nano) := by
  have hsecond := hm.second
  have hminutes : ((if 12 ≤ m.hour then 12 else 0) + m.hour % 12) * 60 + m.minute =
      m.second / 60 := by
    by_cases hnoon : 12 ≤ m.hour
    · rw [if_pos hnoon]
      simp only [hour, minute, daySeconds] at *
      omega
    · rw [if_neg hnoon]
      simp only [hour, minute, daySeconds] at *
      omega
  simp only [Parts.time, named, Int.toNat_natCast, decide_eq_true_eq, Option.getD_some,
    Option.getD_none, Int.toNat_zero, Nat.add_zero, hminutes]
  rcases nano_cases hm with ⟨hnano, -⟩ | ⟨hnano, -, hlast⟩
  · have hless : ¬ m.secondOfMinute = 60 := by
      simp only [secondOfMinute, hnano]
      omega
    rw [if_neg hless]
    simp only [secondOfMinute, whole, hnano]
    congr 2
    omega
  · have hlast' : m.secondOfMinute = 60 := by
      simp only [secondOfMinute, hnano]
      omega
    rw [if_pos hlast']
    simp only [whole, hnano]
    congr 2
    omega

/-- The parts that a moment names determine its full seconds. -/
theorem moment?_named (hm : m.Exists) : m.named.moment? = some m.whole := by
  rw [Parts.moment?, date_named hm, time_named hm]
  rfl

theorem minusOffset?_zero (hm : m.Exists) : m.minusOffset? 0 = some m := by
  have hsecond := hm.second
  have hday : (m.timestamp - 0) / daySeconds = m.date.number := by
    simp only [timestamp, daySeconds] at *
    omega
  have hrest : ((m.timestamp - 0) % daySeconds).toNat = m.second := by
    simp only [timestamp, daySeconds] at *
    omega
  have hdate : Date.ofNumber? m.date.number = some m.date :=
    Date.ofNumber?_eq_some_iff.2 ⟨hm.date, rfl⟩
  simp only [minusOffset?, hday, hrest, hdate, Option.map_some]

theorem exists_whole (hm : m.Exists) : m.whole.Exists := by
  refine ⟨hm.date, hm.second, ?_, ?_⟩
  · have := nano_cases hm
    simp only [whole, secondNanos] at *
    omega
  · have := nano_cases hm
    simp only [whole, secondNanos] at *
    omega

/-- The text of a moment, number by number. -/
theorem toList_text (hyear : 0 ≤ m.date.year) (hyear' : m.date.year ≤ 9999) :
    m.text.toList = padded .zero 4 false m.date.year.toNat ++ '-' ::
      (padded .zero 2 false m.date.month ++ '-' :: (padded .zero 2 false m.date.day ++ 'T' ::
        (padded .zero 2 false m.hour ++ ':' :: (padded .zero 2 false m.minute ++ ':' ::
          (padded .zero 2 false m.secondOfMinute ++ ['Z']))))) := by
  have hwide : (decide (m.date.year < 0) || decide (m.date.year > 9999)) = false := by
    simp
    omega
  simp only [text, Date.text, timeText, twoDigits, yearText, hwide, String.toList_ofList,
    List.append_assoc, List.cons_append, Bool.false_eq_true, if_false, Int.toNat_of_nonneg hyear]

/-- The text of a moment names its parts. -/
theorem standard?_text (hm : m.Exists) (hyear : 0 ≤ m.date.year) (hyear' : m.date.year ≤ 9999) :
    Reading.standard? { rest := m.text.toList } = some { rest := [], parts := m.named } := by
  obtain ⟨hdate, -, -⟩ := Date.isValid_iff.1 hm.date
  have hmonth := hdate.month_pos
  have hmonth' := hdate.month_le
  have hday := hdate.day_pos
  have hday' := hdate.day_le.trans (daysInMonth_le _ _)
  have hsecond := hm.second
  have hhour : m.hour < 24 := by
    simp only [hour, daySeconds] at *
    omega
  have hminute : m.minute < 60 := Nat.mod_lt _ (by decide)
  have hlast : m.secondOfMinute ≤ 60 := by
    have := nano_cases hm
    simp only [secondOfMinute]
    omega
  -- each number is in its range, and nothing has been noted in its place
  have hmonthIn : within? 1 12 (m.date.month : Int) = some (m.date.month : Int) :=
    if_pos (by omega)
  have hdayIn : within? 1 31 (m.date.day : Int) = some (m.date.day : Int) := if_pos (by omega)
  have hhourIn : within? 0 23 (m.hour : Int) = some (m.hour : Int) := if_pos (by omega)
  have hminuteIn : within? 0 59 (m.minute : Int) = some (m.minute : Int) := if_pos (by omega)
  have hsecondIn : within? 0 60 (m.secondOfMinute : Int) = some (m.secondOfMinute : Int) :=
    if_pos (by omega)
  rw [toList_text hyear hyear', Reading.standard?]
  rw [Reading.fixedWidth?_padded (q := { year := some m.date.year }) (by decide) (by omega)
    (by decide) (by simp [Parts.note?, note?, Int.toNat_of_nonneg hyear])]
  simp only [Option.bind_eq_bind, Option.bind_some, Reading.literal?_cons]
  rw [Reading.fixedWidth?_padded (q := { year := some m.date.year, month := some m.date.month })
    (by decide) (by omega) (by decide) (by simp [Parts.note?, note?, hmonthIn])]
  simp only [Option.bind_some, Reading.literal?_cons]
  rw [Reading.fixedWidth?_padded
    (q := { year := some m.date.year, month := some m.date.month, day := some m.date.day })
    (by decide) (by omega) (by decide) (by simp [Parts.note?, note?, hdayIn])]
  simp only [Option.bind_some, Reading.dateTimeMark?]
  rw [Reading.fixedWidth?_padded
    (q := { m.named with minute := none, second := none, offset := none })
    (by decide) (by omega) (by decide) (by
      simp [Parts.note?, Parts.noteHour?, Parts.noteHalf?, note?, hhourIn, named])]
  simp only [Option.bind_some, Reading.literal?_cons]
  rw [Reading.fixedWidth?_padded (q := { m.named with second := none, offset := none })
    (by decide) (by omega) (by decide) (by simp [Parts.note?, note?, hminuteIn, named])]
  simp only [Option.bind_some, Reading.literal?_cons]
  rw [Reading.fixedWidth?_padded (q := { m.named with offset := none })
    (by decide) (by omega) (by decide) (by simp [Parts.note?, note?, hsecondIn, named])]
  rfl

/-- The text of a moment is read back as its full seconds. -/
theorem ofText?_text (hm : m.Exists) (hyear : 0 ≤ m.date.year) (hyear' : m.date.year ≤ 9999) :
    ofText? m.text = some m.whole := by
  have hstandard : ofStandard? m.text = some m.whole := by
    rw [ofStandard?, standard?_text hm hyear hyear']
    simp only [Option.bind_eq_bind, Option.bind_some, List.isEmpty_nil, if_true, moment?_named hm]
    exact minusOffset?_zero (exists_whole hm)
  have htrim : Text.trim m.text = m.text := by
    rw [Text.trim, Text.trimmed_eq_self, String.ofList_toList]
    · intro c hc
      obtain ⟨hne, hdigits, -⟩ :=
        Decimal.digits?_eq_some_iff.1 (digits?_padded 4 m.date.year.toNat)
      rw [toList_text hyear hyear', List.head?_append_of_ne_nil _ hne] at hc
      exact isBlank_of_isDigit (List.all_eq_true.1 hdigits c (List.mem_of_mem_head? hc))
    · intro c hc
      rw [text, String.toList_ofList, List.getLast?_concat] at hc
      obtain rfl := Option.some_inj.1 hc
      rfl
  rw [ofText?]
  simp only [htrim, hstandard, Option.some_or]

end Moment
end Calendar
end Dialogue
