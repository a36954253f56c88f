import Mathlib
import Dialogue.Decimal.Whole
import Dialogue.Proofs.Numbers
import Dialogue.Proofs.Rounding

/-!
# Floats that are integers

The bits of a finite float are a sign, a mantissa and an exponent (`unpack_of_isFinite`), and so are
those of its unpacked form, in which the logical model of floats calculates.  A float that has no
fraction is the float of its whole part, `IsInt` (`isInt_iff`): the unpacked form is then that of a
natural number with a sign.

On such floats the operations are those on integers.  They are compared like these
(`IsInt.compare_eq`), they are negated and made positive exactly, and a product is rounded to 53
bits: it is exact, or beyond all integers of 53 bits, or infinite (`IsInt.mul_cases`).  An integer is
converted to the nearest one of 53 bits (`isInt_ofInt`).
-/

namespace Dialogue
namespace Decimal

open Float.Model UnpackedFloat

/-! ## The bits of a float -/

theorem fraction_eq (x : Float) :
    x.toBits.toNat % Nat.pow 2 52 =
      (@UnpackedFloat.unpackMantissa Format.binary64 x.toModel.toBits.toBitVec).toNat := by
  rw [UnpackedFloat.unpackMantissa_def, BitVec.extractLsb'_toNat, Nat.shiftRight_zero]
  rfl

/-- The sign of a float. -/
def signOf (x : Float) : Sign := if isNegative x then .negative else .positive

theorem ofBitVec_unpackSign (x : Float) :
    Sign.ofBitVec (@UnpackedFloat.unpackSign Format.binary64 x.toModel.toBits.toBitVec) =
      signOf x := by
  have hbit : (@UnpackedFloat.unpackSign Format.binary64 x.toModel.toBits.toBitVec).toNat =
      x.toBits.toNat / Nat.pow 2 63 := by
    rw [UnpackedFloat.unpackSign_def, BitVec.extractLsb'_toNat, Nat.shiftRight_eq_div_pow]
    have hlt : x.toBits.toNat / 2 ^ 63 < 2 := by
      have := x.toBits.toNat_lt
      omega
    exact Nat.mod_eq_of_lt hlt
  rw [signOf, isNegative, ← hbit]
  rcases BitVec.eq_zero_or_eq_one
    (@UnpackedFloat.unpackSign Format.binary64 x.toModel.toBits.toBitVec) with h | h
  · rw [h]; rfl
  · rw [h]; rfl

/-- The unpacked form of a finite float has the sign, the mantissa and the exponent that are read
off its bits. -/
theorem unpack_of_isFinite {x : Float} (h : isFinite x = true) :
    x.toModel.unpack =
      if hm : (Dyadic.ofFloat x).mantissa = 0 then .zero (signOf x)
      else .finite (signOf x) (Dyadic.ofFloat x).mantissa (Dyadic.ofFloat x).exponent
        (Nat.pos_of_ne_zero hm) := by
  have hexponent := exponent_eq x
  have hfraction := fraction_eq x
  rw [isFinite, hexponent] at h
  have hfinite : ¬ (@unpackExponent Format.binary64 x.toModel.toBits.toBitVec) = -1#11 := by
    rw [eq_allOnes_iff]
    simpa using h
  simp only [Float.Model.unpack, UnpackedFloat.unpack, ofBitVec_unpackSign, Dyadic.ofFloat,
    hexponent, hfraction]
  rw [if_neg hfinite]
  by_cases hzero : (@unpackExponent Format.binary64 x.toModel.toBits.toBitVec) = 0#11
  · have hzero' : (@unpackExponent Format.binary64 x.toModel.toBits.toBitVec).toNat = 0 := by
      rw [hzero]; rfl
    rw [if_pos hzero]
    simp only [hzero', if_true]
    by_cases hmantissa : (@unpackMantissa Format.binary64 x.toModel.toBits.toBitVec) = 0#52
    · rw [dif_pos hmantissa, dif_pos]
      rw [hmantissa]; rfl
    · rw [dif_neg hmantissa, dif_neg]
      · rfl
      · intro h0
        exact hmantissa (BitVec.eq_of_toNat_eq h0)
  · have hzero' : (@unpackExponent Format.binary64 x.toModel.toBits.toBitVec).toNat ≠ 0 := by
      intro h0
      exact hzero (BitVec.eq_of_toNat_eq h0)
    rw [if_neg hzero]
    simp only [hzero', if_false]
    rw [dif_neg (Nat.ne_of_gt (Nat.add_pos_left (by decide) _))]
    congr 1
    exact toNat_implicit _

theorem not_isFinite_of_infinite {x : Float} {s : Sign}
    (h : x.toModel.unpack = .infinity s) : isFinite x = false := by
  by_contra hfinite
  rw [unpack_of_isFinite (Bool.not_eq_false _ ▸ hfinite)] at h
  split at h <;> cases h

/-- What is not finite is unpacked as an infinity, or as no number. -/
theorem unpack_of_not_isFinite {x : Float} (h : isFinite x = false) :
    x.toModel.unpack = .infinity (signOf x) ∨ x.toModel.unpack = .notANumber := by
  have hinfinite : (@unpackExponent Format.binary64 x.toModel.toBits.toBitVec) = -1#11 := by
    rw [eq_allOnes_iff, ← exponent_eq]
    simpa [isFinite] using h
  simp only [Float.Model.unpack, UnpackedFloat.unpack, ofBitVec_unpackSign, if_pos hinfinite]
  split
  · exact .inl rfl
  · exact .inr rfl

/-- The mantissa of a finite float has 53 bits, and the first of them is set unless the exponent is
the least one. -/
structure Canonical (m : Nat) (e : Int) : Prop where
  short : m < 2 ^ 53
  least : -1074 ≤ e
  greatest : e ≤ 971
  full : 2 ^ 52 ≤ m ∨ e = -1074

theorem canonical_of_isFinite {x : Float} (h : isFinite x = true) :
    Canonical (Dyadic.ofFloat x).mantissa (Dyadic.ofFloat x).exponent := by
  have hbiased : x.toBits.toNat / 2 ^ 52 % 2 ^ 11 ≠ 2047 := by simpa [isFinite] using h
  have hfraction : x.toBits.toNat % 2 ^ 52 < 2 ^ 52 := Nat.mod_lt _ (by decide)
  have hless : x.toBits.toNat / 2 ^ 52 % 2 ^ 11 < 2 ^ 11 := Nat.mod_lt _ (by decide)
  simp only [Dyadic.ofFloat, Nat.pow_eq]
  split
  · exact ⟨by simp only; omega, by simp, by simp, .inr rfl⟩
  · exact ⟨by simp only; omega, by simp only; omega, by simp only; omega, .inl (by simp)⟩

/-! ## Integers -/

/-- A float that is an integer. -/
structure IsInt (x : Float) (n : Int) : Prop where
  unpack : ∃ s : Sign, x.toModel.unpack = unpackedOf s n.natAbs ∧ s.apply n.natAbs = n
  short : Short n.natAbs
  small : n.natAbs < floatBound

@[simp] theorem apply_zero (s : Sign) : s.apply 0 = 0 := by
  cases s <;> rfl

theorem natAbs_apply (s : Sign) (n : Nat) : (s.apply n).natAbs = n := by
  cases s <;> simp [Sign.apply]

/-- What is packed with 53 bits is an integer. -/
theorem isInt_ofModel_pack (s : Sign) {n : Nat} (hshort : Short n) (hsmall : n < floatBound) :
    IsInt (Float.ofModel (Float.Model.pack (unpackedOf s n))) (s.apply n) := by
  have hunpack := unpack_pack_unpackedOf s n
  rw [if_pos hsmall] at hunpack
  constructor <;> rw [natAbs_apply]
  · exact ⟨s, hunpack, rfl⟩
  · exact hshort
  · exact hsmall

section

variable {x y : Float} {m n : Int}

theorem IsInt.isFinite (h : IsInt x n) : isFinite x = true := by
  obtain ⟨s, hunpack, -⟩ := h.unpack
  by_contra hfinite
  rcases unpack_of_not_isFinite (Bool.not_eq_true _ ▸ hfinite) with hnot | hnot
  all_goals
    rw [hnot, unpackedOf] at hunpack
    split at hunpack <;> cases hunpack

theorem numerator_eq_iff {m n : Nat} {e : Int} :
    (Ratio.scaled m e).numerator = n * (Ratio.scaled m e).denominator ↔
      m * 2 ^ e.toNat = n * 2 ^ (-e).toNat := by
  unfold Ratio.scaled
  split
  · rw [show (-e).toNat = 0 by omega]
    rfl
  · rw [show e.toNat = 0 by omega, pow_zero, Nat.mul_one]
    rfl

theorem denominator_pos (m : Nat) (e : Int) : 0 < (Ratio.scaled m e).denominator := by
  unfold Ratio.scaled
  split
  · exact Nat.one_pos
  · exact Nat.two_pow_pos _

/-- The magnitude and the sign of a float that is an integer. -/
theorem IsInt.magnitude (h : IsInt x n) :
    (Dyadic.ofFloat x).mantissa * 2 ^ (Dyadic.ofFloat x).exponent.toNat =
        n.natAbs * 2 ^ (-(Dyadic.ofFloat x).exponent).toNat ∧
      (if isNegative x then -(n.natAbs : Int) else n.natAbs) = n := by
  obtain ⟨s, hunpack, hsign⟩ := h.unpack
  rw [unpack_of_isFinite h.isFinite] at hunpack
  by_cases hn : n.natAbs = 0
  · obtain rfl := Int.natAbs_eq_zero.1 hn
    split at hunpack
    · rename_i hmantissa
      rw [hmantissa]
      simp
    · cases hunpack
  · rw [unpackedOf_of_ne_zero s hn] at hunpack
    split at hunpack
    · cases hunpack
    · simp only [finite.injEq] at hunpack
      obtain ⟨rfl, hmantissa, hexponent⟩ := hunpack
      constructor
      · have hvalue := h.short.leading_mul
        rw [hmantissa, hexponent]
        by_cases hlog : 52 ≤ n.natAbs.log2
        · have hpow : 2 ^ n.natAbs.log2 = 2 ^ ((n.natAbs.log2 : Int) - 52).toNat * 2 ^ 52 := by
            rw [← pow_add]
            congr 1
            omega
          rw [hpow, ← mul_assoc] at hvalue
          rw [Nat.eq_of_mul_eq_mul_right (by positivity) hvalue,
            show (-((n.natAbs.log2 : Int) - 52)).toNat = 0 by omega, pow_zero, mul_one]
        · have hpow : 2 ^ 52 = 2 ^ (-((n.natAbs.log2 : Int) - 52)).toNat * 2 ^ n.natAbs.log2 := by
            rw [← pow_add]
            congr 1
            omega
          rw [hpow, ← mul_assoc] at hvalue
          rw [Nat.eq_of_mul_eq_mul_right (by positivity) hvalue,
            show ((n.natAbs.log2 : Int) - 52).toNat = 0 by omega, pow_zero, mul_one]
      · rw [signOf] at hsign
        split
        · rwa [if_pos ‹_›] at hsign
        · rwa [if_neg ‹_›] at hsign

/-- Its whole part is the integer. -/
theorem IsInt.truncate? (h : IsInt x n) : truncate? x = some n := by
  obtain ⟨hmagnitude, hsign⟩ := h.magnitude
  have hwhole : (Dyadic.ofFloat x).whole = n.natAbs := by
    rw [Dyadic.whole]
    simp only [numerator_eq_iff.2 hmagnitude]
    exact Nat.mul_div_cancel _ (denominator_pos _ _)
  rw [Decimal.truncate?, if_pos h.isFinite]
  simp only [hwhole, hsign]

theorem IsInt.isWhole (h : IsInt x n) : isWhole x = true := by
  rw [Decimal.isWhole]
  simp only [numerator_eq_iff.2 h.magnitude.1, h.isFinite, Nat.mul_mod_left, beq_self_eq_true,
    Bool.and_self]

/-- Of a finite float without a fraction every bit stands before the point. -/
theorem Canonical.value_eq {m w : Nat} {e : Int} (h : Canonical m e) (hm : m ≠ 0)
    (hw : m * 2 ^ e.toNat = w * 2 ^ (-e).toNat) :
    2 ^ 52 ≤ m ∧ -52 ≤ e ∧ w * 2 ^ 52 = m * 2 ^ (e + 52).toNat := by
  have hshort := h.short
  have hleast : -52 ≤ e := by
    by_contra hsmall
    rw [show e.toNat = 0 by omega, pow_zero, mul_one] at hw
    have hwpos : 0 < w := by
      refine Nat.pos_of_ne_zero fun hzero => hm ?_
      rw [hw, hzero, Nat.zero_mul]
    have hlarge : 2 ^ 53 ≤ w * 2 ^ (-e).toNat :=
      (Nat.pow_le_pow_right (by decide) (by omega)).trans (Nat.le_mul_of_pos_left _ hwpos)
    omega
  refine ⟨h.full.resolve_right (by omega), hleast, ?_⟩
  rcases le_or_gt 0 e with hpos | hneg
  · rw [show (-e).toNat = 0 by omega, pow_zero, mul_one] at hw
    rw [← hw, mul_assoc, ← pow_add, show e.toNat + 52 = (e + 52).toNat by omega]
  · rw [show e.toNat = 0 by omega, pow_zero, mul_one] at hw
    rw [hw, mul_assoc, ← pow_add, show (-e).toNat + (e + 52).toNat = 52 by omega]

/-- A float without a fraction is its whole part. -/
theorem isInt_of_isWhole (hwhole : Decimal.isWhole x = true)
    (h : Decimal.truncate? x = some n) : IsInt x n := by
  simp only [Decimal.isWhole, Bool.and_eq_true, beq_iff_eq] at hwhole
  obtain ⟨hfinite, hrest⟩ := hwhole
  rw [Decimal.truncate?, if_pos hfinite, Option.some_inj] at h
  have hcanonical := canonical_of_isFinite hfinite
  have hunpack := unpack_of_isFinite hfinite
  have hvalue : (Dyadic.ofFloat x).mantissa * 2 ^ (Dyadic.ofFloat x).exponent.toNat =
      (Dyadic.ofFloat x).whole * 2 ^ (-(Dyadic.ofFloat x).exponent).toNat :=
    numerator_eq_iff.1 (Nat.div_mul_cancel (Nat.dvd_of_mod_eq_zero hrest)).symm
  have hn : (signOf x).apply (Dyadic.ofFloat x).whole = n := by
    rw [← h, signOf]
    cases isNegative x <;> rfl
  generalize (Dyadic.ofFloat x).whole = w at hvalue hn
  generalize (Dyadic.ofFloat x).mantissa = m at *
  generalize (Dyadic.ofFloat x).exponent = e at *
  obtain rfl := hn
  by_cases hm : m = 0
  · -- zero
    rw [dif_pos hm] at hunpack
    obtain rfl : w = 0 := by
      rw [hm, Nat.zero_mul, eq_comm, Nat.mul_eq_zero] at hvalue
      exact hvalue.resolve_right (by positivity)
    constructor <;> rw [natAbs_apply]
    · exact ⟨signOf x, hunpack, rfl⟩
    · exact short_of_lt (by positivity)
    · exact lt_floatBound (Nat.two_pow_pos 0) (by decide)
  · rw [dif_neg hm] at hunpack
    obtain ⟨hfull, hleast, hbits⟩ := hcanonical.value_eq hm hvalue
    obtain ⟨hshort, -, hlog⟩ := leading_eq hfull hcanonical.short hbits
    have hw : w ≠ 0 := by
      rintro rfl
      rw [Nat.zero_mul, eq_comm, Nat.mul_eq_zero] at hbits
      exact hbits.elim hm (by positivity)
    have hgreatest := hcanonical.greatest
    constructor <;> rw [natAbs_apply]
    · refine ⟨signOf x, ?_, rfl⟩
      rw [hunpack, unpackedOf_eq (signOf x) hfull hcanonical.short hbits (Nat.pos_of_ne_zero hm)]
      congr 1
      omega
    · exact hshort
    · rw [floatBound, ← Nat.log2_lt hw, widthLimit]
      omega

/-- The floats that are integers are those without a fraction. -/
theorem isInt_iff : IsInt x n ↔ Decimal.isWhole x = true ∧ Decimal.truncate? x = some n :=
  ⟨fun h => ⟨h.isWhole, h.truncate?⟩, fun h => isInt_of_isWhole h.1 h.2⟩

/-! ## Comparing -/

/-- Numbers of 53 bits are compared by their lengths and then by their bits. -/
theorem compare_leading {a b : Nat} (ha : Short a) (hb : Short b) (ha0 : a ≠ 0) (hb0 : b ≠ 0) :
    (compare ((a.log2 : Int) - 52) ((b.log2 : Int) - 52)).then (compare (leading a) (leading b)) =
      compare a b := by
  have hshorter {a b : Nat} (hb0 : b ≠ 0) (h : a.log2 < b.log2) : a < b :=
    calc a < 2 ^ (a.log2 + 1) := Nat.lt_log2_self
      _ ≤ 2 ^ b.log2 := Nat.pow_le_pow_right (by decide) h
      _ ≤ b := Nat.log2_self_le hb0
  rcases lt_trichotomy a.log2 b.log2 with hlog | hlog | hlog
  · rw [compare_lt_iff_lt.2 (by omega), compare_lt_iff_lt.2 (hshorter hb0 hlog)]
    rfl
  · have hleading : leading a < leading b ↔ a < b := by
      rw [← Nat.mul_lt_mul_right (Nat.two_pow_pos b.log2), hb.leading_mul, ← hlog, ha.leading_mul]
      exact Nat.mul_lt_mul_right (by positivity)
    have hleading' : leading b < leading a ↔ b < a := by
      rw [← Nat.mul_lt_mul_right (Nat.two_pow_pos b.log2), hb.leading_mul, ← hlog, ha.leading_mul]
      exact Nat.mul_lt_mul_right (by positivity)
    rw [compare_eq_iff_eq.2 (by rw [hlog]), Ordering.eq_then]
    rcases lt_trichotomy a b with hlt | heq | hgt
    · rw [compare_lt_iff_lt.2 hlt, compare_lt_iff_lt.2 (hleading.2 hlt)]
    · rw [compare_eq_iff_eq.2 heq, compare_eq_iff_eq.2 (by rw [heq])]
    · rw [compare_gt_iff_gt.2 hgt, compare_gt_iff_gt.2 (hleading'.2 hgt)]
  · rw [compare_gt_iff_gt.2 (by omega), compare_gt_iff_gt.2 (hshorter ha0 hlog)]
    rfl

theorem compare_natCast (a b : Nat) : compare (a : Int) b = compare a b := by
  rcases lt_trichotomy a b with hlt | heq | hgt
  · rw [compare_lt_iff_lt.2 hlt, compare_lt_iff_lt.2 (by omega)]
  · rw [compare_eq_iff_eq.2 heq, compare_eq_iff_eq.2 (by omega)]
  · rw [compare_gt_iff_gt.2 hgt, compare_gt_iff_gt.2 (by omega)]

theorem compare_neg_natCast (a b : Nat) : compare (-a : Int) (-b) = (compare a b).swap := by
  rcases lt_trichotomy a b with hlt | heq | hgt
  · rw [compare_lt_iff_lt.2 hlt, compare_gt_iff_gt.2 (by omega), Ordering.swap_lt]
  · rw [compare_eq_iff_eq.2 heq, compare_eq_iff_eq.2 (by omega), Ordering.swap_eq]
  · rw [compare_gt_iff_gt.2 hgt, compare_lt_iff_lt.2 (by omega), Ordering.swap_gt]

theorem compare_unpackedOf (s t : Sign) {a b : Nat} (ha : Short a) (hb : Short b) :
    (unpackedOf s a).compare (unpackedOf t b) = some (compare (s.apply a) (t.apply b)) := by
  by_cases ha0 : a = 0
  · subst ha0
    by_cases hb0 : b = 0
    · subst hb0
      cases s <;> cases t <;> rfl
    · have hpos : (0 : Int) < b := by omega
      rw [unpackedOf_zero, unpackedOf_of_ne_zero t hb0, Nat.cast_zero, apply_zero]
      cases t with
      | positive =>
          have hless : 0 < Sign.positive.apply b := hpos
          rw [UnpackedFloat.compare, compare_lt_iff_lt.2 hless]
      | negative =>
          have hless : Sign.negative.apply b < 0 := Int.neg_neg_of_pos hpos
          rw [UnpackedFloat.compare, compare_gt_iff_gt.2 hless]
  · have hpos : (0 : Int) < a := by omega
    by_cases hb0 : b = 0
    · subst hb0
      rw [unpackedOf_zero, unpackedOf_of_ne_zero s ha0, Nat.cast_zero, apply_zero]
      cases s with
      | positive =>
          have hless : 0 < Sign.positive.apply a := hpos
          rw [UnpackedFloat.compare, compare_gt_iff_gt.2 hless]
      | negative =>
          have hless : Sign.negative.apply a < 0 := Int.neg_neg_of_pos hpos
          rw [UnpackedFloat.compare, compare_lt_iff_lt.2 hless]
    · rw [unpackedOf_of_ne_zero s ha0, unpackedOf_of_ne_zero t hb0]
      cases s with
      | positive =>
          cases t with
          | positive =>
              rw [UnpackedFloat.compare, compare_leading ha hb ha0 hb0]
              simp only [Sign.apply, compare_natCast]
          | negative =>
              rw [UnpackedFloat.compare, compare_gt_iff_gt.2 (by simp [Sign.apply]; omega)]
      | negative =>
          cases t with
          | positive =>
              rw [UnpackedFloat.compare, compare_lt_iff_lt.2 (by simp [Sign.apply]; omega)]
          | negative =>
              rw [UnpackedFloat.compare, compare_leading ha hb ha0 hb0]
              simp only [Sign.apply, compare_neg_natCast]

/-- Floats that are integers are compared like these. -/
theorem IsInt.compare_eq (hm : IsInt x m) (hn : IsInt y n) :
    x.toModel.unpack.compare y.toModel.unpack = some (compare m n) := by
  obtain ⟨s, hx, hs⟩ := hm.unpack
  obtain ⟨t, hy, ht⟩ := hn.unpack
  rw [hx, hy, compare_unpackedOf s t hm.short hn.short, hs, ht]

theorem IsInt.beq_iff (hm : IsInt x m) (hn : IsInt y n) : (x == y) = true ↔ m = n := by
  change (x.toModel.unpack.compare y.toModel.unpack == some .eq) = true ↔ _
  rw [hm.compare_eq hn, beq_iff_eq, Option.some_inj, compare_eq_iff_eq]

theorem IsInt.lt_iff (hm : IsInt x m) (hn : IsInt y n) : x < y ↔ m < n := by
  change decide ((x.toModel.unpack.compare y.toModel.unpack == some .lt) = true) = true ↔ _
  rw [hm.compare_eq hn, decide_eq_true_iff, beq_iff_eq, Option.some_inj, compare_lt_iff_lt]

/-! ## Arithmetic -/

theorem IsInt.neg (h : IsInt x n) : IsInt (-x) (-n) := by
  obtain ⟨s, hunpack, hsign⟩ := h.unpack
  have hneg : (unpackedOf s n.natAbs).neg = unpackedOf (-s) n.natAbs := by
    unfold unpackedOf
    split <;> rfl
  have hint := isInt_ofModel_pack (-s) h.short h.small
  have happly : (-s).apply n.natAbs = -n := by
    cases s with
    | negative => exact (neg_eq_iff_eq_neg.1 hsign)
    | positive => exact congrArg Neg.neg hsign
  rw [← hneg, ← hunpack, happly] at hint
  exact hint

theorem IsInt.abs (h : IsInt x n) : IsInt x.abs |n| := by
  obtain ⟨s, hunpack, hsign⟩ := h.unpack
  have habs : (unpackedOf s n.natAbs).abs = unpackedOf .positive n.natAbs := by
    unfold unpackedOf
    split <;> rfl
  have hint := isInt_ofModel_pack .positive h.short h.small
  have happly : Sign.positive.apply n.natAbs = |n| := Int.abs_eq_natAbs n ▸ rfl
  rw [← habs, ← hunpack, happly] at hint
  exact hint

/-- The nearest integer of 53 bits, ties to even. -/
def nearest (n : Int) : Int := n.sign * rounded n.natAbs

theorem nearest_of_short (h : Short n.natAbs) : nearest n = n := by
  rw [nearest, rounded_of_short h, Int.sign_mul_natAbs]

theorem natAbs_nearest (n : Int) : (nearest n).natAbs = rounded n.natAbs := by
  rcases eq_or_ne n 0 with rfl | hn
  · rfl
  · rw [nearest, Int.natAbs_mul, Int.natAbs_sign_of_ne_zero hn, one_mul, Int.natAbs_natCast]

/-- An integer that is rounded to one of less than 53 bits is that one. -/
theorem nearest_eq_self (h : (nearest n).natAbs < 2 ^ 53) : nearest n = n := by
  refine nearest_of_short (short_of_lt ?_)
  by_contra hlarge
  rw [natAbs_nearest] at h
  exact absurd (le_rounded (not_lt.1 hlarge)) (not_le.2 h)

theorem apply_rounded {s : Sign} (h : s.apply n.natAbs = n) :
    s.apply (rounded n.natAbs) = nearest n := by
  rcases eq_or_ne n 0 with rfl | hn
  · cases s <;> rfl
  · cases s with
    | negative =>
        change -(n.natAbs : Int) = n at h
        have hneg : n.sign = -1 := Int.sign_eq_neg_one_of_neg (by omega)
        rw [nearest, hneg, Sign.apply, neg_one_mul]
    | positive =>
        change (n.natAbs : Int) = n at h
        have hpos : n.sign = 1 := Int.sign_eq_one_of_pos (by omega)
        rw [nearest, hpos, Sign.apply, one_mul]

theorem apply_mul (s t : Sign) (a b : Nat) :
    (s * t).apply (a * b : Nat) = s.apply a * t.apply b := by
  rw [Nat.cast_mul]
  cases s <;> cases t
  · exact (neg_mul_neg (a : Int) b).symm
  · exact (neg_mul (a : Int) b).symm
  · exact (mul_neg (a : Int) b).symm
  · rfl

theorem IsInt.unpack_mul (hm : IsInt x m) (hn : IsInt y n) :
    ∃ s : Sign, s.apply (m * n).natAbs = m * n ∧
      x * y = Float.ofModel (Float.Model.pack (unpackedOf s (rounded (m * n).natAbs))) := by
  obtain ⟨s, hx, hs⟩ := hm.unpack
  obtain ⟨t, hy, ht⟩ := hn.unpack
  refine ⟨s * t, ?_, ?_⟩
  · rw [Int.natAbs_mul, apply_mul, hs, ht]
  · rw [Int.natAbs_mul, ← mul_unpackedOf s t hm.short hn.short, ← hx, ← hy]
    rfl

/-- A product is the nearest integer, or infinite. -/
theorem IsInt.mul (hm : IsInt x m) (hn : IsInt y n) (hsmall : rounded (m * n).natAbs < floatBound) :
    IsInt (x * y) (nearest (m * n)) := by
  obtain ⟨s, hsign, hproduct⟩ := hm.unpack_mul hn
  rw [hproduct, ← apply_rounded hsign]
  exact isInt_ofModel_pack s (short_rounded _) hsmall

theorem IsInt.mul_infinite (hm : IsInt x m) (hn : IsInt y n)
    (hlarge : ¬ rounded (m * n).natAbs < floatBound) :
    ∃ s, (x * y).toModel.unpack = .infinity s := by
  obtain ⟨s, -, hproduct⟩ := hm.unpack_mul hn
  refine ⟨s, ?_⟩
  rw [hproduct, unpack_pack_unpackedOf, if_neg hlarge]

/-- A product of less than 53 bits is exact, and any other one keeps its distance from them. -/
theorem IsInt.mul_cases (hm : IsInt x m) (hn : IsInt y n) :
    IsInt (x * y) (m * n) ∨
      (∃ k : Int, IsInt (x * y) k ∧ 2 ^ 53 ≤ k.natAbs) ∨
        ∃ s, (x * y).toModel.unpack = .infinity s := by
  by_cases hlarge : 2 ^ 53 ≤ (m * n).natAbs
  · right
    by_cases hsmall : rounded (m * n).natAbs < floatBound
    · exact .inl ⟨_, hm.mul hn hsmall, natAbs_nearest (m * n) ▸ le_rounded hlarge⟩
    · exact .inr (hm.mul_infinite hn hsmall)
  · have hless : (m * n).natAbs < 2 ^ 53 := not_le.1 hlarge
    have hshort := short_of_lt hless
    have hproduct := hm.mul hn (by
      rw [rounded_of_short hshort]
      exact lt_floatBound hless (by decide))
    rw [nearest_of_short hshort] at hproduct
    exact .inl hproduct

/-! ## Conversions -/

theorem isInt_one : IsInt (Float.exactlyRepresentablePowersOfTen[0]) 1 where
  unpack := ⟨.positive, rfl, rfl⟩
  short := short_of_lt (by decide)
  small := lt_floatBound (Nat.lt_two_pow_self (n := 1)) (by decide)

/-- Small numbers are converted and multiplied by one, large ones are rounded. -/
theorem isInt_ofNat {n : Nat} (h : n < 2 ^ 64) : IsInt (Float.ofNat n) (rounded n) := by
  have hsmall : rounded n < floatBound :=
    lt_floatBound ((rounded_le h).trans_lt (Nat.pow_lt_pow_right (by decide) (Nat.lt_succ_self 64)))
      (by decide)
  change IsInt (Float.ofScientific n false 0) _
  unfold Float.ofScientific
  split
  · rename_i hless
    have hfloat : n.toUInt64.toFloat =
        Float.ofModel (Float.Model.pack (UnpackedFloat.ofNat Format.binary64 n.toUInt64.toNat)) :=
      rfl
    have hword : n.toUInt64.toNat = n := Nat.mod_eq_of_lt h
    have hint := isInt_ofModel_pack .positive (short_rounded n) hsmall
    rw [← ofNat_eq, ← hword, ← hfloat, hword] at hint
    have hnearest : nearest (rounded n) = rounded n := nearest_of_short (n := (rounded n : Int))
      (short_rounded n)
    have hproduct := hint.mul isInt_one (by
      change rounded ((rounded n : Int) * 1).natAbs < floatBound
      rw [mul_one, Int.natAbs_natCast, rounded_of_short (short_rounded n)]
      exact hsmall)
    change IsInt _ (nearest ((rounded n : Int) * 1)) at hproduct
    rw [mul_one, hnearest] at hproduct
    exact hproduct
  · have hint := isInt_ofModel_pack .positive (short_rounded n) hsmall
    rw [← ofScientific_eq] at hint
    exact hint

theorem isInt_ofNat_of_lt {n : Nat} (h : n < 2 ^ 53) : IsInt (Float.ofNat n) n := by
  have hint := isInt_ofNat (h.trans (Nat.pow_lt_pow_right (by decide) (by decide)))
  rwa [rounded_of_short (short_of_lt h)] at hint

/-- An integer is converted to the nearest one of 53 bits. -/
theorem isInt_ofInt {n : Int} (h : Number.Fits n) : IsInt (Float.ofInt n) (nearest n) := by
  unfold Number.Fits at h
  cases n with
  | ofNat n =>
      have hint := isInt_ofNat (n := n) (by simp only [Int.ofNat_eq_natCast] at h; omega)
      exact apply_rounded (s := .positive) (n := n) rfl ▸ hint
  | negSucc n =>
      have hint := (isInt_ofNat (n := n + 1) (by omega)).neg
      exact apply_rounded (s := .negative) (n := .negSucc n) rfl ▸ hint

end

end Decimal
end Dialogue
