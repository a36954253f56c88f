import Dialogue.Decimal.Layout

/-!
# Spans of time

Times and spans are whole nanoseconds.  A scenario gives a span as a number of seconds,
which is rounded to the nearest nanosecond, ties to even.  A span is written in the
largest unit that gives it a whole part, with only the decimals it needs.

A clock cannot look ahead without limit.  What is to happen later than it can reach
happens after thirty years instead.
-/

namespace Dialogue

/-- Nanoseconds: an instant since the clock started, or a span between two instants. -/
abbrev Nanos := Nat

namespace Nanos

/-- Whole seconds. -/
def ofSeconds (n : Nat) : Nanos := n * 1000000000

/-- Whole milliseconds. -/
def ofMillis (n : Nat) : Nanos := n * 1000000

/-- Milliseconds, rounded down. -/
def millis (t : Nanos) : Nat := t / 1000000

/-- The first whole millisecond that is not before an instant. -/
def wholeMillis (t : Nanos) : Nanos := ofMillis ((t + 999999) / 1000000)

/-- The spans that a clock can look ahead are shorter than this one. -/
def reach : Nanos := ofSeconds (Nat.pow 2 63)

/-- Thirty years of 365 days. -/
def thirtyYears : Nanos := ofSeconds (30 * 365 * 86400)

/-- A span as a clock waits for it. -/
def withinReach (t : Nanos) : Nanos := if t < reach then t else thirtyYears

theorem withinReach_of_lt {t : Nanos} (h : t < reach) : withinReach t = t := if_pos h

/-- A clock can look ahead as far as it waits. -/
theorem withinReach_lt (t : Nanos) : withinReach t < reach := by
  unfold withinReach
  split
  · assumption
  · decide

@[simp] theorem millis_ofMillis (n : Nat) : millis (ofMillis n) = n := by
  simp [millis, ofMillis]

/-- The nearest whole number to a quotient, ties to even. -/
def roundQuotient (numerator denominator : Nat) : Nat :=
  let below := numerator / denominator
  let rest := 2 * (numerator % denominator)
  if rest < denominator ∨ (rest = denominator ∧ below % 2 = 0) then below else below + 1

/-- The span of a number of seconds.  Negative numbers and spans of `2 ^ 64` seconds or
more have none. -/
def ofFloatSeconds? (x : Float) : Option Nanos :=
  let d := Decimal.Dyadic.ofFloat x
  if d.mantissa = 0 then some 0
  else if Decimal.isNegative x || !Decimal.isFinite x then none
  else
    let r := Decimal.Ratio.scaled d.mantissa d.exponent
    if r.numerator ≥ Nat.pow 2 64 * r.denominator then none
    else some (roundQuotient (r.numerator * 1000000000) r.denominator)

/-- Digits after the point: `width` places, without the zeros at the end. -/
def decimals (fraction width : Nat) : List Char :=
  let digits := Nat.toDigits 10 fraction
  (List.replicate (width - digits.length) '0' ++ digits).reverse.dropWhile (· = '0')
    |>.reverse

/-- A whole part and a fraction of `width` places, with a unit. -/
def inUnit (whole fraction width : Nat) (unit : String) : String :=
  let places := decimals fraction width
  let number := Nat.toDigits 10 whole ++ (if places.isEmpty then [] else '.' :: places)
  String.ofList number ++ unit

/-- The text of a span, such as `10s`, `1.5s`, `250ms` or `1.5µs`. -/
def text (t : Nanos) : String :=
  if t ≥ 1000000000 then inUnit (t / 1000000000) (t % 1000000000) 9 "s"
  else if t ≥ 1000000 then inUnit (t / 1000000) (t % 1000000) 6 "ms"
  else if t ≥ 1000 then inUnit (t / 1000) (t % 1000) 3 "µs"
  else inUnit t 0 0 "ns"

end Nanos

/-- The time of day as people count it, in milliseconds since 1970, at each instant. -/
abbrev WallClock := Nanos → Int

/-- A wall clock that shows a given time when the clock starts and keeps step with it. -/
def WallClock.ofStart (start : Int) : WallClock := fun now => start + now.millis

end Dialogue
