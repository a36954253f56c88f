/-!
# Counts

A count is a natural number written in decimal digits.  Button numbers, list
positions and callback numbers are all read by the one rule of this module: an
optional plus sign, at least one digit, and a value within a stated limit.
-/

namespace Dialogue
namespace Decimal

/-- The value of an ASCII digit. -/
def digitValue (c : Char) : Nat :=
  c.toNat - '0'.toNat

/-- The number that a list of digits denotes, read after `start`. -/
def ofDigits (start : Nat) (digits : List Char) : Nat :=
  digits.foldl (fun n c => 10 * n + digitValue c) start

/-- A run of digits as a number; `none` when it is empty or holds anything else. -/
def digits? (cs : List Char) : Option Nat :=
  if cs ≠ [] ∧ cs.all Char.isDigit then some (ofDigits 0 cs) else none

/-- A count no larger than `limit`.  A leading plus sign and leading zeros are
allowed, a minus sign is not. -/
def count? (limit : Nat) (s : String) : Option Nat :=
  let digits := match s.toList with
    | '+' :: rest => rest
    | cs => cs
  (digits? digits).filter (· ≤ limit)

/-- The largest count that fits in 64 bits. -/
def wordLimit : Nat := Nat.pow 2 64 - 1

/-- A run of digits grows its number by one place per digit. -/
theorem ofDigits_append (start : Nat) (xs ys : List Char) :
    ofDigits start (xs ++ ys) = ofDigits (ofDigits start xs) ys := by
  simp [ofDigits, List.foldl_append]

/-- An accepted count keeps to its limit. -/
theorem count?_le {limit n : Nat} {s : String} (h : count? limit s = some n) : n ≤ limit := by
  simp only [count?] at h
  have := Option.eq_some_of_filter_eq_some h
  have hn := (Option.filter_eq_some_iff.1 h).2
  simpa using hn

end Decimal
end Dialogue
