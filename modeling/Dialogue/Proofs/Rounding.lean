import Mathlib
import Dialogue.Clock.Nanos

/-!
# Rounding to 53 bits

Floats calculate as if without limit and round the result to 53 bits.  In the logical model a
result is a sign, a mantissa and a power of two, and it is rounded by shifting the mantissa to the
right: one bit and a flag for all others remember what is lost (`ShiftedBy`), and both together
decide between the two neighbours as the rest of a division does (`ShiftedBy.roundedMantissa`).

This module follows the results that are natural numbers.  Such a result is rounded like the number
that it is, however it is split into a mantissa and a power of two (`roundWithAccuracy_eq`):
`rounded` gives the nearest number of 53 bits, and `unpackedOf` the float that has these bits.
Products and conversions are instances (`mul_unpackedOf`, `ofNat_eq`, `ofScientific_eq`).
-/

namespace Dialogue
namespace Decimal

open Float.Model UnpackedFloat

/-! ## Shifting -/

/-- The bits of a number that are left after shifting, and what is kept of those that are gone: the
first of them, and whether another one was set. -/
structure ShiftedBy (em : ExtendedMantissa) (m k : Nat) : Prop where
  mantissa : em.mantissa = m / 2 ^ k
  roundBit : em.roundBit = decide (2 ^ k ≤ 2 * (m % 2 ^ k))
  stickyBit : em.stickyBit = decide (2 * (m % 2 ^ k) % 2 ^ k ≠ 0)

theorem ShiftedBy.shiftRightOne {em : ExtendedMantissa} {m k : Nat} (h : ShiftedBy em m k) :
    ShiftedBy em.shiftRightOne m (k + 1) := by
  have hrest : m % 2 ^ (k + 1) = m % 2 ^ k + 2 ^ k * (m / 2 ^ k % 2) := Nat.mod_pow_succ
  have hless : m % 2 ^ k < 2 ^ k := Nat.mod_lt _ (by positivity)
  have hpow : 2 ^ (k + 1) = 2 ^ k * 2 := pow_succ 2 k
  have hrest' : 2 * (m % 2 ^ (k + 1)) % 2 ^ (k + 1) = 2 * (m % 2 ^ k) := by
    rw [hrest, mul_add, ← mul_assoc, mul_comm 2 (2 ^ k), ← hpow, Nat.add_mul_mod_self_left,
      Nat.mod_eq_of_lt (by omega)]
  constructor
  · rw [ExtendedMantissa.shiftRightOne, h.mantissa, Nat.div_div_eq_div_mul, hpow]
  · rw [ExtendedMantissa.shiftRightOne, h.mantissa, hrest]
    rcases Nat.mod_two_eq_zero_or_one (m / 2 ^ k) with hbit | hbit
    · rw [hbit, hpow]
      simp
      omega
    · rw [hbit, hpow]
      simp
      omega
  · rw [ExtendedMantissa.shiftRightOne, h.roundBit, h.stickyBit, hrest', ← Bool.decide_or,
      decide_eq_decide]
    constructor
    · rintro hbits hzero
      rw [hzero] at hbits
      simp at hbits
    · intro hne
      by_cases hlarge : 2 ^ k ≤ 2 * (m % 2 ^ k)
      · exact .inl hlarge
      · rw [Nat.mod_eq_of_lt (not_le.1 hlarge)]
        exact .inr hne

theorem shiftedBy_shiftRight (m k : Nat) :
    ShiftedBy (ExtendedMantissa.ofMantissaAndAccuracy m .exact >>> k) m k := by
  induction k with
  | zero =>
      constructor <;>
        simp [HShiftRight.hShiftRight, Nat.repeat, ExtendedMantissa.ofMantissaAndAccuracy,
          Nat.mod_one]
  | succ k ih => exact ih.shiftRightOne

/-- What is kept of the lost bits decides how the bits that are left are rounded. -/
theorem ShiftedBy.roundedMantissa {em : ExtendedMantissa} {m k : Nat} (h : ShiftedBy em m k) :
    em.roundedMantissa = Nanos.roundQuotient m (2 ^ k) := by
  have hless : m % 2 ^ k < 2 ^ k := Nat.mod_lt _ (by positivity)
  have hmantissa := h.mantissa
  have hround := h.roundBit
  have hsticky := h.stickyBit
  obtain ⟨below, round, sticky⟩ := em
  simp only at hmantissa hround hsticky
  subst hmantissa
  rw [Nanos.roundQuotient, ExtendedMantissa.roundedMantissa]
  generalize m % 2 ^ k = rest at *
  generalize m / 2 ^ k = below
  cases round with
  | false =>
      have hlow : 2 * rest < 2 ^ k := by simpa using hround
      rw [if_pos (.inl hlow)]
      cases sticky <;> rfl
  | true =>
      have hhigh : 2 ^ k ≤ 2 * rest := by simpa using hround
      have hover : 2 * rest % 2 ^ k = 2 * rest - 2 ^ k := by
        rw [Nat.mod_eq_sub_mod hhigh, Nat.mod_eq_of_lt (by omega)]
      rw [hover] at hsticky
      cases sticky with
      | false =>
          -- a tie goes to the even neighbour
          have htie : 2 * rest = 2 ^ k := by
            simp at hsticky
            omega
          change below + below % 2 = _
          simp only [htie, lt_irrefl, true_and, false_or]
          split <;> omega
      | true =>
          have habove : 2 * rest ≠ 2 ^ k := by
            simp at hsticky
            omega
          change below + 1 = _
          rw [if_neg (by omega)]

/-! ## Nearest whole numbers -/

theorem roundQuotient_mul_right (numerator denominator : Nat) {c : Nat} (hc : 0 < c) :
    Nanos.roundQuotient (numerator * c) (denominator * c) =
      Nanos.roundQuotient numerator denominator := by
  simp only [Nanos.roundQuotient, Nat.mul_div_mul_right _ _ hc, Nat.mul_mod_mul_right,
    ← mul_assoc, Nat.mul_lt_mul_right hc, Nat.mul_left_inj hc.ne']

theorem roundQuotient_mul_self (q : Nat) {d : Nat} (hd : 0 < d) :
    Nanos.roundQuotient (q * d) d = q := by
  simp [Nanos.roundQuotient, Nat.mul_div_cancel _ hd, hd]

/-- The nearest whole number is one of the two neighbours. -/
theorem roundQuotient_bounds (n d : Nat) :
    n / d ≤ Nanos.roundQuotient n d ∧ Nanos.roundQuotient n d ≤ n / d + 1 := by
  simp only [Nanos.roundQuotient]
  split <;> omega

/-! ## Numbers of 53 bits -/

/-- The first 53 bits of a number, filled up with zeros. -/
def leading (n : Nat) : Nat := n * 2 ^ 52 / 2 ^ n.log2

/-- The float that has the first 53 bits of a number. -/
def unpackedOf (s : Sign) (n : Nat) : UnpackedFloat :=
  if h : 0 < leading n then .finite s (leading n) ((n.log2 : Int) - 52) h else .zero s

/-- A number that has no more than 53 bits between its first and its last one. -/
def Short (n : Nat) : Prop := 2 ^ n.log2 ∣ n * 2 ^ 52

/-- The nearest number of 53 bits, ties to even. -/
def rounded (n : Nat) : Nat :=
  Nanos.roundQuotient n (2 ^ (n.log2 - 52)) * 2 ^ (n.log2 - 52)

theorem log2_mul_two_pow {n : Nat} (hn : n ≠ 0) (k : Nat) : (n * 2 ^ k).log2 = n.log2 + k := by
  refine (Nat.log2_eq_iff (by positivity)).2 ⟨?_, ?_⟩
  · rw [pow_add]
    exact Nat.mul_le_mul_right _ (Nat.log2_self_le hn)
  · rw [show n.log2 + k + 1 = n.log2 + 1 + k by ring, pow_add]
    exact Nat.mul_lt_mul_of_pos_right Nat.lt_log2_self (by positivity)

theorem leading_bounds {n : Nat} (hn : n ≠ 0) : 2 ^ 52 ≤ leading n ∧ leading n < 2 ^ 53 := by
  have hlow := Nat.log2_self_le hn
  have hhigh : n < 2 ^ (n.log2 + 1) := Nat.lt_log2_self
  rw [leading, Nat.le_div_iff_mul_le (by positivity), Nat.div_lt_iff_lt_mul (by positivity)]
  constructor
  · rw [mul_comm]
    exact Nat.mul_le_mul_right _ hlow
  · calc n * 2 ^ 52
        < 2 ^ (n.log2 + 1) * 2 ^ 52 := Nat.mul_lt_mul_of_pos_right hhigh (by positivity)
      _ = 2 ^ 53 * 2 ^ n.log2 := by ring

theorem Short.leading_mul {n : Nat} (h : Short n) : leading n * 2 ^ n.log2 = n * 2 ^ 52 :=
  Nat.div_mul_cancel h

/-- Fifty-three bits and a power of two make a number with these bits. -/
theorem leading_eq {n q l : Nat} (hlow : 2 ^ 52 ≤ q) (hhigh : q < 2 ^ 53)
    (h : n * 2 ^ 52 = q * 2 ^ l) : Short n ∧ leading n = q ∧ n.log2 = l := by
  have hq : q ≠ 0 := by
    rintro rfl
    simp at hlow
  have hn : n ≠ 0 := by
    rintro rfl
    rw [Nat.zero_mul, eq_comm, Nat.mul_eq_zero] at h
    rcases h with h | h
    · exact hq h
    · exact absurd h (by positivity)
  have hlog : n.log2 = l := by
    have := congrArg Nat.log2 h
    rw [log2_mul_two_pow hn, log2_mul_two_pow hq, (Nat.log2_eq_iff hq).2 ⟨hlow, hhigh⟩] at this
    omega
  refine ⟨⟨q, ?_⟩, ?_, hlog⟩
  · rw [hlog, h, mul_comm]
  · rw [leading, hlog, h, Nat.mul_div_cancel _ (by positivity)]

theorem unpackedOf_eq (s : Sign) {n q l : Nat} (hlow : 2 ^ 52 ≤ q) (hhigh : q < 2 ^ 53)
    (h : n * 2 ^ 52 = q * 2 ^ l) (hq : 0 < q) :
    unpackedOf s n = .finite s q ((l : Int) - 52) hq := by
  obtain ⟨-, hleading, hlog⟩ := leading_eq hlow hhigh h
  rw [unpackedOf, dif_pos (hleading ▸ hq)]
  simp only [hleading, hlog]

/-- Rounding acts on the first 53 bits, with the others behind the point. -/
theorem rounded_mul (n : Nat) :
    rounded n * 2 ^ 52 = Nanos.roundQuotient (n * 2 ^ 52) (2 ^ n.log2) * 2 ^ n.log2 := by
  rw [rounded]
  by_cases hlog : 52 ≤ n.log2
  · have hpow : 2 ^ n.log2 = 2 ^ (n.log2 - 52) * 2 ^ 52 := by
      rw [← pow_add, Nat.sub_add_cancel hlog]
    rw [hpow, roundQuotient_mul_right _ _ (by positivity), mul_assoc]
  · have hpow : 2 ^ 52 = 2 ^ (52 - n.log2) * 2 ^ n.log2 := by
      rw [← pow_add, Nat.sub_add_cancel (by omega)]
    have hzero : n.log2 - 52 = 0 := by omega
    rw [hzero, pow_zero, mul_one, show Nanos.roundQuotient n 1 = n by
      simpa using roundQuotient_mul_self n Nat.one_pos, hpow, ← mul_assoc,
      roundQuotient_mul_self _ (by positivity)]

theorem rounded_of_short {n : Nat} (h : Short n) : rounded n = n := by
  have hmul := rounded_mul n
  rw [← h.leading_mul, roundQuotient_mul_self _ (by positivity), h.leading_mul] at hmul
  exact Nat.eq_of_mul_eq_mul_right (by positivity) hmul

theorem short_of_lt {n : Nat} (h : n < 2 ^ 53) : Short n := by
  refine Dvd.dvd.mul_left (pow_dvd_pow 2 ?_) n
  by_cases hn : n = 0
  · simp [hn]
  · exact Nat.lt_succ_iff.1 ((Nat.log2_lt hn).2 h)

/-- Rounding to 53 bits, or to a fifty-fourth one that is a power of two. -/
theorem roundQuotient_bounds_of_full {m k : Nat} (hlow : 2 ^ (52 + k) ≤ m)
    (hhigh : m < 2 ^ (53 + k)) :
    2 ^ 52 ≤ Nanos.roundQuotient m (2 ^ k) ∧ Nanos.roundQuotient m (2 ^ k) ≤ 2 ^ 53 := by
  obtain ⟨hleast, hgreatest⟩ := roundQuotient_bounds m (2 ^ k)
  have hdiv : 2 ^ 52 ≤ m / 2 ^ k ∧ m / 2 ^ k < 2 ^ 53 := by
    rw [Nat.le_div_iff_mul_le (by positivity), Nat.div_lt_iff_lt_mul (by positivity), ← pow_add,
      ← pow_add]
    exact ⟨hlow, hhigh⟩
  omega

/-- The first 53 bits of a number, rounded. -/
theorem roundQuotient_leading {n : Nat} (hn : n ≠ 0) :
    2 ^ 52 ≤ Nanos.roundQuotient (n * 2 ^ 52) (2 ^ n.log2) ∧
      Nanos.roundQuotient (n * 2 ^ 52) (2 ^ n.log2) ≤ 2 ^ 53 := by
  refine roundQuotient_bounds_of_full ?_ ?_
  · rw [pow_add, mul_comm]
    exact Nat.mul_le_mul_right _ (Nat.log2_self_le hn)
  · rw [show 53 + n.log2 = n.log2 + 1 + 52 by ring, pow_add]
    exact Nat.mul_lt_mul_of_pos_right Nat.lt_log2_self (by positivity)

theorem short_rounded (n : Nat) : Short (rounded n) := by
  by_cases hn : n = 0
  · subst hn
    exact short_of_lt (by decide)
  · obtain ⟨hlow, hhigh⟩ := roundQuotient_leading hn
    have hvalue := rounded_mul n
    rcases hhigh.lt_or_eq with hshort | hcarry
    · exact (leading_eq hlow hshort hvalue).1
    · rw [hcarry, show 2 ^ 53 * 2 ^ n.log2 = 2 ^ 52 * 2 ^ (n.log2 + 1) by ring] at hvalue
      exact (leading_eq le_rfl (by decide) hvalue).1

/-- Rounding does not lead over a power of two. -/
theorem rounded_le {n k : Nat} (hn : n < 2 ^ k) : rounded n ≤ 2 ^ k := by
  by_cases hn0 : n = 0
  · subst hn0
    exact Nat.zero_le _
  · have hlog : n.log2 + 1 ≤ k := (Nat.log2_lt hn0).2 hn
    refine Nat.le_of_mul_le_mul_right (c := 2 ^ 52) ?_ (by positivity)
    calc rounded n * 2 ^ 52
        = Nanos.roundQuotient (n * 2 ^ 52) (2 ^ n.log2) * 2 ^ n.log2 := rounded_mul n
      _ ≤ 2 ^ 53 * 2 ^ n.log2 := Nat.mul_le_mul_right _ (roundQuotient_leading hn0).2
      _ = 2 ^ (n.log2 + 1) * 2 ^ 52 := by ring
      _ ≤ 2 ^ k * 2 ^ 52 := Nat.mul_le_mul_right _ (Nat.pow_le_pow_right (by decide) hlog)

theorem le_rounded {n k : Nat} (hn : 2 ^ k ≤ n) : 2 ^ k ≤ rounded n := by
  have hn0 : n ≠ 0 := (Nat.lt_of_lt_of_le (Nat.two_pow_pos k) hn).ne'
  have hlog : k ≤ n.log2 := (Nat.le_log2 hn0).2 hn
  refine Nat.le_of_mul_le_mul_right (c := 2 ^ 52) ?_ (by positivity)
  calc 2 ^ k * 2 ^ 52
      ≤ 2 ^ n.log2 * 2 ^ 52 := Nat.mul_le_mul_right _ (Nat.pow_le_pow_right (by decide) hlog)
    _ = 2 ^ 52 * 2 ^ n.log2 := Nat.mul_comm _ _
    _ ≤ Nanos.roundQuotient (n * 2 ^ 52) (2 ^ n.log2) * 2 ^ n.log2 :=
        Nat.mul_le_mul_right _ (roundQuotient_leading hn0).1
    _ = rounded n * 2 ^ 52 := (rounded_mul n).symm

/-! ## Rounding -/

theorem targetExponent_eq {m : Nat} {e : Int} (h : -1022 ≤ m.log2 + e) :
    Format.binary64.targetExponent (totalExponent m e) = m.log2 + e - 52 := by
  have hleast : Format.binary64.minExponent = -1074 := by decide
  have hbits : (Format.binary64.mantissaBits : Int) = 53 := by decide
  rw [Format.targetExponent, hleast, hbits, totalExponent]
  omega

/-- Shifting down to 53 bits. -/
theorem shiftToTargetExponent_eq {m k : Nat} {e : Int} (hk : m.log2 = 52 + k)
    (h : -1074 ≤ e + k) :
    shiftToTargetExponent Format.binary64 m e .exact =
      (ExtendedMantissa.ofMantissaAndAccuracy m .exact >>> k, e + k) := by
  have htarget : Format.binary64.targetExponent (totalExponent m e) = e + k := by
    rw [targetExponent_eq (by omega), hk]
    push_cast
    ring
  simp only [shiftToTargetExponent, shiftToExponent, htarget, add_sub_cancel_left,
    Int.toNat_natCast]

/-- The carry out of the last place, if there is one, leaves a power of two. -/
theorem carry_eq (s : Sign) {n q l : Nat} (hlow : 2 ^ 52 ≤ q) (hhigh : q ≤ 2 ^ 53)
    (h : n * 2 ^ 52 = q * 2 ^ l) :
    let shifted := shiftToTargetExponent Format.binary64 q ((l : Int) - 52) .exact
    ∃ hpos : 0 < shifted.1.mantissa,
      .finite s shifted.1.mantissa shifted.2 hpos = unpackedOf s n := by
  rcases hhigh.lt_or_eq with hshort | rfl
  · have hq : q.log2 = 52 + 0 := (Nat.log2_eq_iff (by omega)).2 ⟨hlow, hshort⟩
    rw [shiftToTargetExponent_eq hq (by omega)]
    simp only [(shiftedBy_shiftRight q 0).mantissa, pow_zero, Nat.div_one]
    refine ⟨by omega, ?_⟩
    rw [unpackedOf_eq s hlow hshort h (by omega)]
    simp
  · have hq : (2 ^ 53).log2 = 52 + 1 := by rw [Nat.log2_two_pow]
    rw [shiftToTargetExponent_eq hq (by omega)]
    simp only [(shiftedBy_shiftRight (2 ^ 53) 1).mantissa]
    have hcarried : n * 2 ^ 52 = 2 ^ 52 * 2 ^ (l + 1) := by
      rw [h]
      ring
    refine ⟨by decide, ?_⟩
    rw [unpackedOf_eq s le_rfl (by decide) hcarried (by decide)]
    congr 1
    push_cast
    ring

/-- A product of a mantissa and a power of two is rounded like the number that it is. -/
theorem roundWithAccuracy_eq (s : Sign) {m n a b : Nat} (hn : n ≠ 0) (hm : 52 ≤ m.log2)
    (h : m * 2 ^ a = n * 2 ^ b) :
    roundWithAccuracy Format.binary64 s m ((a : Int) - b) .exact = unpackedOf s (rounded n) := by
  have hm0 : m ≠ 0 := by
    rintro rfl
    simp at hm
  have hlog : m.log2 + a = n.log2 + b := by
    rw [← log2_mul_two_pow hm0, ← log2_mul_two_pow hn, h]
  obtain ⟨k, hk⟩ := Nat.exists_eq_add_of_le hm
  have hexponent : (a : Int) - b + k = n.log2 - 52 := by omega
  -- the bits of the mantissa are the bits of the number
  have hround : Nanos.roundQuotient m (2 ^ k) =
      Nanos.roundQuotient (n * 2 ^ 52) (2 ^ n.log2) := by
    have hnumerator : m * 2 ^ (a + 52) = n * 2 ^ 52 * 2 ^ b := by
      rw [pow_add, ← mul_assoc, h, mul_right_comm]
    have hdenominator : 2 ^ k * 2 ^ (a + 52) = 2 ^ n.log2 * 2 ^ b := by
      rw [← pow_add, ← pow_add, show k + (a + 52) = n.log2 + b by omega]
    rw [← roundQuotient_mul_right m (2 ^ k) (Nat.two_pow_pos (a + 52)), hnumerator, hdenominator,
      roundQuotient_mul_right _ _ (Nat.two_pow_pos b)]
  obtain ⟨hlow, hhigh⟩ := roundQuotient_bounds_of_full (m := m) (k := k)
    (hk ▸ Nat.log2_self_le hm0) (by
      have : m < 2 ^ (m.log2 + 1) := Nat.lt_log2_self
      rwa [hk, show 52 + k + 1 = 53 + k by ring] at this)
  obtain ⟨hpos, hcarry⟩ := carry_eq s hlow hhigh (hround ▸ rounded_mul n)
  rw [roundWithAccuracy, shiftToTargetExponent_eq hk (by omega), hexponent]
  simp only [(shiftedBy_shiftRight m k).roundedMantissa]
  rw [dif_neg hpos.ne', hcarry]

/-! ## Packing -/

theorem eq_allOnes_iff (b : BitVec 11) : b = -1#11 ↔ b.toNat = 2047 := by
  rw [← BitVec.toNat_inj]
  rfl

theorem toNat_implicit (m : BitVec 52) : (1#1 ++ m).toNat = Nat.pow 2 52 + m.toNat := by
  rw [BitVec.toNat_append, ← Nat.shiftLeft_add_eq_or_of_lt m.isLt]
  rfl

/-- What is packed with a full mantissa is unpacked again, unless its exponent is too large. -/
theorem unpack_pack_of_full (s : Sign) {m : Nat} {e : Int} (hm : 0 < m) (hlow : 2 ^ 52 ≤ m)
    (hhigh : m < 2 ^ 53) (hleast : -1074 ≤ e) :
    (Float.Model.pack (.finite s m e hm)).unpack =
      if e ≤ 971 then .finite s m e hm else .infinity s := by
  have hlog : m.log2 + 1 = Format.binary64.mantissaBits := by
    have : m.log2 = 52 := (Nat.log2_eq_iff hm.ne').2 ⟨hlow, hhigh⟩
    rw [this]
    rfl
  have hbias : (e + Format.binary64.exponentBias + Format.binary64.mantissaBitsWithoutImplicit) =
      e + 1075 := by
    simp [Format.exponentBias]
    ring
  simp only [Float.Model.unpack, Float.Model.pack, UnpackedFloat.pack, hbias]
  split
  · rename_i hlarge
    have hlarge' : 2048 ≤ (e + 1075).toNat + 1 := hlarge
    rw [if_neg (by omega)]
    simp [UnpackedFloat.unpack, packedInfinity]
  · rename_i hsmall
    have hsmall' : ¬ 2048 ≤ (e + 1075).toNat + 1 := hsmall
    rw [if_pos (by omega : e ≤ 971)]
    have hexponent : (BitVec.ofNat 11 (e + 1075).toNat).toNat = (e + 1075).toNat := by
      rw [BitVec.toNat_ofNat, Nat.mod_eq_of_lt (by omega)]
    have hfinite : ¬ BitVec.ofNat 11 (e + 1075).toNat = -1#11 := by
      rw [eq_allOnes_iff]
      omega
    have hnormal : ¬ BitVec.ofNat 11 (e + 1075).toNat = 0#11 := by
      intro h
      have := congrArg BitVec.toNat h
      rw [hexponent] at this
      simp at this
      omega
    have hmantissa : (1#1 ++ BitVec.ofNat 52 m).toNat = m := by
      rw [toNat_implicit, BitVec.toNat_ofNat]
      simp
      omega
    simp only [UnpackedFloat.unpack, unpackExponent_packComponents,
      unpackMantissa_packComponents, unpackSign_packComponents, Sign.ofBitVec_toBitVec]
    rw [if_neg hfinite, if_neg hnormal]
    simp only [hmantissa, hexponent]
    congr 1
    simp [Format.exponentBias]
    omega

/-- The largest number of bits that a float has before the point. -/
def widthLimit : Nat := 1024

/-- The floats are less than this power of two. -/
def floatBound : Nat := 2 ^ widthLimit

theorem lt_floatBound {n k : Nat} (hn : n < 2 ^ k) (hk : k ≤ widthLimit) : n < floatBound :=
  hn.trans_le (Nat.pow_le_pow_right Nat.two_pos hk)

theorem unpackedOf_zero (s : Sign) : unpackedOf s 0 = .zero s := rfl

theorem unpackedOf_of_ne_zero (s : Sign) {n : Nat} (hn : n ≠ 0) :
    unpackedOf s n = .finite s (leading n) ((n.log2 : Int) - 52)
      (Nat.lt_of_lt_of_le (by decide) (leading_bounds hn).1) :=
  dif_pos _

/-- A number of any size is packed, and unpacked again unless it is too large. -/
theorem unpack_pack_unpackedOf (s : Sign) (n : Nat) :
    (Float.Model.pack (unpackedOf s n)).unpack =
      if n < floatBound then unpackedOf s n else .infinity s := by
  by_cases hn : n = 0
  · subst hn
    rw [if_pos (lt_floatBound (Nat.two_pow_pos 0) (by decide)), unpackedOf_zero]
    cases s <;> rfl
  · obtain ⟨hlow, hhigh⟩ := leading_bounds hn
    have hlarge : n < floatBound ↔ (n.log2 : Int) - 52 ≤ 971 := by
      rw [floatBound, ← Nat.log2_lt hn, widthLimit]
      omega
    rw [unpackedOf_of_ne_zero s hn, unpack_pack_of_full s _ hlow hhigh (by omega)]
    exact (if_congr hlarge rfl rfl).symm

/-! ## Arithmetic -/

theorem mul_unpackedOf (s t : Sign) {m n : Nat} (hm : Short m) (hn : Short n) :
    UnpackedFloat.mul Format.binary64 (unpackedOf s m) (unpackedOf t n) =
      unpackedOf (s * t) (rounded (m * n)) := by
  by_cases hm0 : m = 0
  · subst hm0
    by_cases hn0 : n = 0
    · subst hn0
      rfl
    · rw [unpackedOf_of_ne_zero t hn0, Nat.zero_mul]
      rfl
  · by_cases hn0 : n = 0
    · subst hn0
      rw [unpackedOf_of_ne_zero s hm0, Nat.mul_zero]
      rfl
    · rw [unpackedOf_of_ne_zero s hm0, unpackedOf_of_ne_zero t hn0]
      have hmlow := (leading_bounds hm0).1
      have hnlow := (leading_bounds hn0).1
      have hlog : 52 ≤ (leading m * leading n).log2 := by
        rw [Nat.le_log2 (Nat.mul_ne_zero (by omega) (by omega))]
        exact hmlow.trans (Nat.le_mul_of_pos_right _ (by omega))
      have hvalue : leading m * leading n * 2 ^ (m.log2 + n.log2) = m * n * 2 ^ 104 := by
        calc leading m * leading n * 2 ^ (m.log2 + n.log2)
            = leading m * 2 ^ m.log2 * (leading n * 2 ^ n.log2) := by ring
          _ = m * 2 ^ 52 * (n * 2 ^ 52) := by rw [hm.leading_mul, hn.leading_mul]
          _ = m * n * 2 ^ 104 := by ring
      rw [← roundWithAccuracy_eq (s * t) (Nat.mul_ne_zero hm0 hn0) hlog hvalue]
      rw [UnpackedFloat.mul]
      congr 1
      push_cast
      ring

theorem ofNat_eq (n : Nat) :
    UnpackedFloat.ofNat Format.binary64 n = unpackedOf .positive (rounded n) := by
  by_cases hn : n = 0
  · subst hn
    rfl
  · have hpos : compare (n : Int) 0 = .gt := by
      rw [compare_gt_iff_gt]
      omega
    rw [UnpackedFloat.ofNat, UnpackedFloat.ofInt, UnpackedFloat.normalize, hpos]
    simp only [Int.toNat_natCast, UnpackedFloat.round, decreaseExponent]
    rw [targetExponent_eq (by omega)]
    have hshift : (0 - ((n.log2 : Int) + 0 - 52)).toNat = 52 - n.log2 := by omega
    rw [hshift, Nat.shiftLeft_eq]
    have hlog : 52 ≤ (n * 2 ^ (52 - n.log2)).log2 := by
      rw [log2_mul_two_pow hn]
      omega
    have hround := roundWithAccuracy_eq .positive (a := 0) (b := 52 - n.log2) hn hlog (by ring)
    rw [← hround]
    rfl

theorem ofScientific_eq (n : Nat) :
    UnpackedFloat.ofScientific Format.binary64 n 0 = unpackedOf .positive (rounded n) := by
  by_cases hn : n = 0
  · subst hn
    rfl
  · have hbits : Format.binary64.mantissaBits = 53 := rfl
    have hlog : 52 ≤ (n * 2 ^ 53).log2 := by
      rw [log2_mul_two_pow hn]
      omega
    have hround := roundWithAccuracy_eq .positive (a := 0) (b := 53) hn hlog (by ring)
    have hsmall : ¬ (0 : Int) < -((2 ^ Format.binary64.exponentBits : Int) + n.log2) := by
      have : (2 : Int) ^ Format.binary64.exponentBits = 2048 := rfl
      omega
    rw [UnpackedFloat.ofScientific, dif_neg hn, if_neg (by decide), if_neg hsmall, if_pos le_rfl,
      UnpackedFloat.mul, ← hround]
    simp only [hbits, Nat.shiftLeft_eq, Int.toNat_zero, pow_zero, mul_one]
    rfl

end Decimal
end Dialogue
