import Dialogue.Decimal.Shortest

/-!
# Whole parts and remainders

A finite float is a whole number times a power of two, so its whole part and the
remainder of a division are found by exact arithmetic on natural numbers.
-/

namespace Dialogue
namespace Decimal

/-- The whole part of the magnitude of a number. -/
def Dyadic.whole (d : Dyadic) : Nat :=
  let r := Ratio.scaled d.mantissa d.exponent
  r.numerator / r.denominator

/-- A finite number without its fraction, rounded toward zero. -/
def truncate? (x : Float) : Option Int :=
  if isFinite x then
    let n : Int := (Dyadic.ofFloat x).whole
    some (if isNegative x then -n else n)
  else none

/-- Whether a finite number has no fraction. -/
def isWhole (x : Float) : Bool :=
  let d := Dyadic.ofFloat x
  let r := Ratio.scaled d.mantissa d.exponent
  isFinite x && r.numerator % r.denominator == 0

/-- The mantissa of the remainder of two magnitudes, at the smaller exponent. -/
def Dyadic.remainder (d e : Dyadic) : Nat × Int :=
  let least := min d.exponent e.exponent
  (d.mantissa * Nat.pow 2 (d.exponent - least).toNat %
    (e.mantissa * Nat.pow 2 (e.exponent - least).toNat), least)

/-- The remainder of a division whose quotient is rounded toward zero; it has the sign of
the dividend, and is exact.  Both numbers are finite and the divisor is not zero. -/
def remainder (x y : Float) : Float :=
  let (mantissa, exponent) := (Dyadic.ofFloat x).remainder (Dyadic.ofFloat y)
  let magnitude := (Float.ofNat mantissa).scaleB exponent
  if isNegative x then -magnitude else magnitude

end Decimal
end Dialogue
