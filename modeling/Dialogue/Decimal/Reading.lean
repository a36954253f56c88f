import Dialogue.Decimal.Count

/-!
# Reading decimals

A decimal literal is `digits · 10 ^ exponent` with a sign.  `Literal.toFloat?`
rounds it to the nearest binary64 number; a literal beyond the largest finite
number has no value, and one below the least positive number is zero.
-/

namespace Dialogue
namespace Decimal

/-- A signed decimal: its digits, most significant first, and a power of ten. -/
structure Literal where
  negative : Bool
  digits : List Char
  exponent : Int
deriving DecidableEq, Repr

/-- Infinities have no decimal. -/
def finite? (x : Float) : Option Float :=
  if x.toBits.toNat / Nat.pow 2 52 % Nat.pow 2 11 = 2047 then none else some x

/-- The nearest binary64 number.  The two early exits keep the powers of ten small:
beyond them the answer does not depend on the digits. -/
def Literal.toFloat? (l : Literal) : Option Float :=
  let coefficient := ofDigits 0 l.digits
  let magnitude : Int := (Nat.toDigits 10 coefficient).length + l.exponent
  let signed (x : Float) : Float := if l.negative then -x else x
  if coefficient = 0 || magnitude < -400 then some (signed 0)
  else if magnitude > 400 then none
  else
    (finite? (Float.ofScientific coefficient (l.exponent < 0) l.exponent.natAbs)).map signed

/-- Digits at the front, and what follows them. -/
def spanDigits (cs : List Char) : List Char × List Char :=
  (cs.takeWhile Char.isDigit, cs.dropWhile Char.isDigit)

/-- An optional sign; `true` is minus. -/
def spanSign : List Char → Bool × List Char
  | '-' :: rest => (true, rest)
  | '+' :: rest => (false, rest)
  | cs => (false, cs)

/-- An exponent part that reaches the end of the text; nothing stands for zero. -/
def exponent? : List Char → Option Int
  | [] => some 0
  | c :: rest =>
    if c = 'e' || c = 'E' then
      let (negative, rest) := spanSign rest
      (digits? rest).map fun n => if negative then -(n : Int) else n
    else none

/-- Reads a free-standing decimal: a sign, digits with at most one point and at
least one digit, and an optional exponent. -/
def literal? (s : String) : Option Literal :=
  let (negative, rest) := spanSign s.toList
  let (whole, rest) := spanDigits rest
  let (fraction, rest) := match rest with
    | '.' :: rest => spanDigits rest
    | rest => ([], rest)
  if whole.isEmpty && fraction.isEmpty then none
  else (exponent? rest).map fun e =>
    { negative, digits := whole ++ fraction, exponent := e - fraction.length }

/-- The finite number that a text denotes. -/
def number? (s : String) : Option Float :=
  (literal? s).bind Literal.toFloat?

end Decimal
end Dialogue
