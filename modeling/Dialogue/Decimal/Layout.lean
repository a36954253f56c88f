import Dialogue.Decimal.Shortest

/-!
# Decimal layout

How the digits of a shortest decimal are set out as text.  `Layout` holds the
decisions of a format; `Layout.plain` is the one that JSON text uses here:
positional from `1e-5` up to below `1e16`, a whole number keeps `.0`, and an
exponent always shows its sign.
-/

namespace Dialogue
namespace Decimal

/-- The least and greatest decimal exponents written positionally. -/
structure Layout where
  least : Int
  greatest : Int

/-- Positional from `1e-5` to below `1e16`. -/
def Layout.plain : Layout where
  least := -5
  greatest := 15

/-- The digits of a natural number in base ten. -/
def digitsOf (n : Nat) : List Char :=
  Nat.toDigits 10 n

/-- An integer in decimal digits. -/
def ofInt (n : Int) : String :=
  String.ofList (if n < 0 then '-' :: digitsOf n.natAbs else digitsOf n.natAbs)

/-- `count` zeros. -/
def zeros (count : Nat) : List Char :=
  List.replicate count '0'

/-- Digits with the point after the first `whole` of them; missing digits are zeros,
and at least one digit stands on either side of the point. -/
def positional (digits : List Char) (whole : Int) : List Char :=
  if whole ≤ 0 then
    '0' :: '.' :: (zeros (-whole).toNat ++ digits)
  else
    let n := whole.toNat
    let front := digits.take n ++ zeros (n - digits.length)
    let back := digits.drop n
    front ++ '.' :: (if back.isEmpty then ['0'] else back)

/-- One digit, a point before further digits, and a signed exponent. -/
def scientific (digits : List Char) (exponent : Int) : List Char :=
  let mantissa := match digits with
    | [] => ['0']
    | [d] => [d]
    | d :: rest => d :: '.' :: rest
  let sign := if exponent < 0 then '-' else '+'
  mantissa ++ 'e' :: sign :: digitsOf exponent.natAbs

/-- The text of a finite number. -/
def Layout.write (layout : Layout) (x : Float) : String :=
  let (coefficient, scale) := shortest x
  let digits := digitsOf coefficient
  let exponent : Int := scale + digits.length - 1
  let body :=
    if coefficient = 0 then positional ['0'] 1
    else if layout.least ≤ exponent ∧ exponent ≤ layout.greatest then
      positional digits (exponent + 1)
    else scientific digits exponent
  String.ofList (if isNegative x then '-' :: body else body)

end Decimal
end Dialogue
