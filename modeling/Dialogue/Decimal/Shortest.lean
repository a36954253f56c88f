/-!
# Shortest decimals

The decimal text of a binary64 number uses the fewest significant digits that
read back as the same number, and among those the nearest.  The module finds the
digits by exact arithmetic on natural numbers.  A finite positive number is
`m · 2 ^ q`; the reals that round to it form an interval, whose ends belong to it
when `m` is even.  On the grid of `n` significant digits only the two neighbours
of the number need to be tried, and `17` digits always suffice.
-/

namespace Dialogue
namespace Decimal

/-- A positive binary64 number `mantissa · 2 ^ exponent`.  `narrow` marks the least
mantissa of a binade, where the gap below is half the gap above. -/
structure Dyadic where
  mantissa : Nat
  exponent : Int
  narrow : Bool
deriving DecidableEq, Repr

/-- Decodes the magnitude of a finite number; zero has mantissa zero. -/
def Dyadic.ofFloat (x : Float) : Dyadic :=
  let bits := x.toBits.toNat
  let fraction : Nat := bits % Nat.pow 2 52
  let biased : Nat := bits / Nat.pow 2 52 % Nat.pow 2 11
  if biased = 0 then
    { mantissa := fraction, exponent := -1074, narrow := false }
  else
    { mantissa := Nat.pow 2 52 + fraction, exponent := (biased : Int) - 1075,
      narrow := fraction = 0 && biased > 1 }

/-- Sign bit of a number, set for negative zero. -/
def isNegative (x : Float) : Bool :=
  x.toBits.toNat / Nat.pow 2 63 = 1

/-- Infinities and not-a-numbers carry the largest biased exponent. -/
def isFinite (x : Float) : Bool :=
  x.toBits.toNat / Nat.pow 2 52 % Nat.pow 2 11 ≠ 2047

/-- The fraction `numerator / denominator` of two natural numbers. -/
structure Ratio where
  numerator : Nat
  denominator : Nat
deriving DecidableEq, Repr

/-- `n · 2 ^ q` as a fraction. -/
def Ratio.scaled (n : Nat) (q : Int) : Ratio :=
  if q ≥ 0 then ⟨n * Nat.pow 2 q.toNat, 1⟩ else ⟨n, Nat.pow 2 (-q).toNat⟩

/-- The fraction divided by `10 ^ k`. -/
def Ratio.shift (r : Ratio) (k : Int) : Ratio :=
  if k ≥ 0 then ⟨r.numerator, r.denominator * Nat.pow 10 k.toNat⟩
  else ⟨r.numerator * Nat.pow 10 (-k).toNat, r.denominator⟩

/-- Comparison of two fractions by cross multiplication. -/
def Ratio.le (r s : Ratio) : Bool :=
  r.numerator * s.denominator ≤ s.numerator * r.denominator

/-- Strict comparison of two fractions. -/
def Ratio.lt (r s : Ratio) : Bool :=
  r.numerator * s.denominator < s.numerator * r.denominator

/-- The reals that round to a number, with the number itself. -/
structure Interval where
  low : Ratio
  value : Ratio
  high : Ratio
  closed : Bool

/-- The rounding interval of a number, in quarters of its last place. -/
def Dyadic.interval (d : Dyadic) : Interval :=
  let q := d.exponent - 2
  { low := Ratio.scaled (4 * d.mantissa - (if d.narrow then 1 else 2)) q
    value := Ratio.scaled (4 * d.mantissa) q
    high := Ratio.scaled (4 * d.mantissa + 2) q
    closed := d.mantissa % 2 = 0 }

/-- Membership of the decimal `c` on a grid whose step has been divided out. -/
def Interval.holds (i : Interval) (k : Int) (c : Nat) : Bool :=
  let x : Ratio := ⟨c, 1⟩
  let low := i.low.shift k
  let high := i.high.shift k
  if i.closed then low.le x && x.le high else low.lt x && x.lt high

/-- Steps `e` down while the value is below `10 ^ e`, and up while it reaches
`10 ^ (e + 1)`; the estimate it starts from is off by at most a few. -/
def settle (value : Ratio) : Nat → Int → Int
  | 0, e => e
  | fuel + 1, e =>
    if (value.shift e).lt ⟨1, 1⟩ then settle value fuel (e - 1)
    else if (Ratio.mk 10 1).le (value.shift e) then settle value fuel (e + 1)
    else e

/-- The decimal exponent of a positive fraction: `10 ^ e ≤ value < 10 ^ (e + 1)`. -/
def decimalExponent (value : Ratio) : Int :=
  let binary : Int := (value.numerator.log2 : Int) - (value.denominator.log2 : Int)
  settle value 8 (binary * 30103 / 100000)

/-- The best of the two neighbours of the value on the grid `10 ^ k`, if one of them
lies in the interval.  The nearer wins, and an exact tie goes to the even one. -/
def Interval.neighbour? (i : Interval) (k : Int) : Option Nat :=
  let v := i.value.shift k
  let below := v.numerator / v.denominator
  let rest := 2 * (v.numerator % v.denominator)
  let nearestIsBelow :=
    rest < v.denominator || (rest == v.denominator && below % 2 == 0)
  match i.holds k below, i.holds k (below + 1) with
  | true, true => some (if nearestIsBelow then below else below + 1)
  | true, false => some below
  | false, true => some (below + 1)
  | false, false => none

/-- Tries grids of growing fineness, `n` digits at a time. -/
def Interval.search (i : Interval) (e : Int) : Nat → Nat → Nat × Int
  | 0, n => (((i.value.shift (e - n + 1)).numerator /
      (i.value.shift (e - n + 1)).denominator), e - n + 1)
  | fuel + 1, n =>
    match i.neighbour? (e - n + 1) with
    | some c => (c, e - n + 1)
    | none => i.search e fuel (n + 1)

/-- Drops trailing zeros of the coefficient `c` of `c · 10 ^ k`. -/
def dropZeros : Nat → Nat × Int → Nat × Int
  | 0, p => p
  | fuel + 1, (c, k) =>
    if c ≠ 0 ∧ c % 10 = 0 then dropZeros fuel (c / 10, k + 1) else (c, k)

/-- The shortest decimal `c · 10 ^ k` of the magnitude of a finite number. -/
def shortest (x : Float) : Nat × Int :=
  let d := Dyadic.ofFloat x
  if d.mantissa = 0 then (0, 0)
  else
    let i := d.interval
    dropZeros 20 (i.search (decimalExponent i.value) 17 1)

end Decimal
end Dialogue
