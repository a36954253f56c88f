import Mathlib
import Dialogue.Decimal.Shortest
import Dialogue.Json.Value

/-!
# Numbers as floats

Numbers are compared as floats, and a float is equal to itself unless it stands for no number.
`Number.Finite` is what is required of the number of a value; its float is a number
(`Number.Finite.toFloat_ne_nan`).  For a float that is written so this is what finite means, and
for an integer, which is rounded, it is shown step by step: what is rounded is a number, and a
number is not packed into the bits that stand for none.  A literal that has a float has a finite
one (`Decimal.isFinite_of_toFloat?`).
-/

namespace Dialogue
namespace Number

open Float.Model UnpackedFloat

/-- Only what is not a number is packed into the bits that stand for none. -/
theorem pack_eq_packedNaN_iff (u : UnpackedFloat) :
    u.pack Format.binary64 = packedNaN Format.binary64 ↔ u = .notANumber := by
  constructor
  · intro hpack
    have hexponent := congrArg unpackExponent hpack
    have hmantissa := congrArg unpackMantissa hpack
    revert hexponent hmantissa
    fun_cases UnpackedFloat.pack Format.binary64 u with
    | case1 => simp
    | case2 | case4 =>
        -- an infinity has no fraction
        intro _ hmantissa
        simp [packedInfinity, packedNaN] at hmantissa
    | case3 =>
        intro hexponent
        simp [packedZero, packedNaN] at hexponent
    | case5 s m e hm actual biased hlarge hlong =>
        -- the exponent of a finite float is below the largest one
        intro hexponent
        simp only [packedNaN, unpackExponent_packComponents] at hexponent
        have hbiased := congrArg BitVec.toNat hexponent
        simp at hbiased hlarge
        omega
    | case6 =>
        intro hexponent
        simp [packedNaN] at hexponent
  · rintro rfl
    rfl

theorem eq_nan_iff {x : Float} : x = Float.nan ↔ x.toModel.unpack = .notANumber := by
  rw [← UnpackedFloat.isNaN_iff]
  have hisNaN : x.isNaN = decide (x = Float.nan) := Float.isNaN_eq_decide_eq_nan
  simp only [Float.isNaN, Float.Model.isNaN] at hisNaN
  simp [hisNaN]

theorem ofModel_pack_eq_nan_iff {u : UnpackedFloat} :
    Float.ofModel (Float.Model.pack u) = Float.nan ↔ u = .notANumber := by
  rw [eq_nan_iff, Float.Model.unpack, Float.Model.pack,
    UnpackedFloat.unpack_eq_notANumber_iff_of_valid (by simp)]
  exact pack_eq_packedNaN_iff u

/-! ## Rounding -/

theorem roundWithAccuracy_ne_notANumber (s : Sign) (m : Nat) (e : Int) (accuracy : Accuracy) :
    roundWithAccuracy Format.binary64 s m e accuracy ≠ .notANumber := by
  unfold roundWithAccuracy
  dsimp only
  split <;> simp

theorem ofNat_ne_notANumber (n : Nat) :
    UnpackedFloat.ofNat Format.binary64 n ≠ .notANumber := by
  unfold UnpackedFloat.ofNat UnpackedFloat.ofInt UnpackedFloat.normalize UnpackedFloat.round
  split
  · exact roundWithAccuracy_ne_notANumber _ _ _ _
  · simp
  · exact roundWithAccuracy_ne_notANumber _ _ _ _

theorem mul_finite_ne_notANumber {u : UnpackedFloat} (hu : u ≠ .notANumber) (s : Sign) (m : Nat)
    (e : Int) (hm : 0 < m) :
    UnpackedFloat.mul Format.binary64 u (.finite s m e hm) ≠ .notANumber := by
  cases u with
  | notANumber => exact absurd rfl hu
  | infinity | zero => simp [UnpackedFloat.mul]
  | finite =>
      rw [UnpackedFloat.mul]
      exact roundWithAccuracy_ne_notANumber _ _ _ _

theorem ofNat_ne_nan (n : Nat) : Float.ofNat n ≠ Float.nan := by
  change Float.ofScientific n false 0 ≠ _
  unfold Float.ofScientific
  split
  · -- a small number is exact, and multiplied by one
    simp only [Bool.false_eq_true, if_false]
    change Float.ofModel (Float.Model.pack (UnpackedFloat.mul _ _ _)) ≠ _
    rw [Ne, ofModel_pack_eq_nan_iff]
    have hone : (Float.exactlyRepresentablePowersOfTen[0]).toModel.unpack =
        .finite .positive 4503599627370496 (-52) (by decide) := rfl
    have hfloat : n.toUInt64.toFloat ≠ Float.nan := fun h =>
      ofNat_ne_notANumber _ (ofModel_pack_eq_nan_iff.1 h)
    rw [hone]
    exact mul_finite_ne_notANumber (mt eq_nan_iff.2 hfloat) _ _ _ _
  · -- a large one is multiplied by a power of ten before it is rounded
    change Float.ofModel (Float.Model.pack (UnpackedFloat.ofScientific _ _ 0)) ≠ _
    rw [Ne, ofModel_pack_eq_nan_iff]
    unfold UnpackedFloat.ofScientific
    split
    · simp
    · split
      · simp
      · split
        · simp
        · rw [if_pos le_rfl]
          exact mul_finite_ne_notANumber (by simp) _ _ _ _

theorem ofInt_ne_nan (n : Int) : Float.ofInt n ≠ Float.nan := by
  cases n with
  | ofNat n => exact ofNat_ne_nan n
  | negSucc n =>
      change Float.ofModel (Float.Model.pack (UnpackedFloat.neg _)) ≠ _
      rw [Ne, ofModel_pack_eq_nan_iff]
      have hnat := mt eq_nan_iff.2 (ofNat_ne_nan n.succ)
      generalize (Float.ofNat n.succ).toModel.unpack = u at hnat ⊢
      cases u with
      | notANumber => exact absurd rfl hnat
      | infinity | zero | finite => simp [UnpackedFloat.neg]

end Number

namespace Decimal

open Float.Model

/-! ## Finite floats -/

theorem isFinite_nan : isFinite Float.nan = false := by decide

/-- The exponent in the bits of a float. -/
theorem exponent_eq (x : Float) :
    x.toBits.toNat / Nat.pow 2 52 % Nat.pow 2 11 =
      (@UnpackedFloat.unpackExponent Format.binary64 x.toModel.toBits.toBitVec).toNat := by
  rw [UnpackedFloat.unpackExponent_def, BitVec.extractLsb'_toNat, Nat.shiftRight_eq_div_pow]
  rfl

theorem unpackExponent_pack_neg (u : UnpackedFloat) :
    UnpackedFloat.unpackExponent (u.neg.pack Format.binary64) =
      UnpackedFloat.unpackExponent (u.pack Format.binary64) := by
  cases u with
  | notANumber => rfl
  | infinity s => simp [UnpackedFloat.neg, UnpackedFloat.pack, UnpackedFloat.packedInfinity]
  | zero s => simp [UnpackedFloat.neg, UnpackedFloat.pack, UnpackedFloat.packedZero]
  | finite s m e hm =>
      simp only [UnpackedFloat.neg, UnpackedFloat.pack]
      split
      · simp [UnpackedFloat.packedInfinity]
      · split <;> simp

theorem isFinite_neg (x : Float) : isFinite (-x) = isFinite x := by
  rw [isFinite, isFinite, exponent_eq, exponent_eq]
  have hneg : (-x).toModel.toBits.toBitVec = x.toModel.unpack.neg.pack Format.binary64 := rfl
  have hself : x.toModel.toBits.toBitVec = x.toModel.unpack.pack Format.binary64 :=
    (UnpackedFloat.pack_unpack_of_valid x.toModel.valid).symm
  rw [hneg, unpackExponent_pack_neg, ← hself]

theorem isFinite_of_finite? {x y : Float} (h : finite? x = some y) : isFinite y := by
  rw [finite?] at h
  split at h
  · cases h
  · rename_i hexponent
    obtain rfl := Option.some.inj h
    simpa [isFinite] using hexponent

/-- The float of a literal is finite. -/
theorem isFinite_of_toFloat? {l : Literal} {x : Float} (h : l.toFloat? = some x) : isFinite x := by
  have hsigned : ∀ y : Float, isFinite y → isFinite (if l.negative then -y else y) := by
    intro y hy
    split
    · rwa [isFinite_neg]
    · exact hy
  rw [Literal.toFloat?] at h
  dsimp only at h
  split at h
  · obtain rfl := Option.some.inj h
    exact hsigned 0 (by decide)
  · split at h
    · cases h
    · obtain ⟨y, hy, rfl⟩ := Option.map_eq_some_iff.1 h
      exact hsigned y (isFinite_of_finite? hy)

end Decimal

namespace Number

/-! ## Numbers of values -/

/-- A number is an integer that fits, or a finite float. -/
def Finite : Number → Prop
  | .int n => Fits n
  | .float x => Decimal.isFinite x = true

instance (n : Number) : Decidable n.Finite :=
  match n with
  | .int n => inferInstanceAs (Decidable (Fits n))
  | .float x => inferInstanceAs (Decidable (Decimal.isFinite x = true))

/-- A number that is calculated is finite. -/
theorem finite_of_ofFloat? {x : Float} {n : Number} (h : ofFloat? x = some n) : n.Finite := by
  rw [ofFloat?] at h
  split at h
  · rename_i whole hwhole
    obtain rfl := Option.some.inj h
    have hsmall : (whole.natAbs : Int) < wholeLimit := by
      simpa using (Option.filter_eq_some_iff.1 hwhole).2
    simp only [Finite, Fits, wholeLimit] at hsmall ⊢
    omega
  · obtain ⟨y, hy, rfl⟩ := Option.map_eq_some_iff.1 h
    exact Decimal.isFinite_of_finite? hy

theorem Finite.toFloat_ne_nan {n : Number} (h : n.Finite) : n.toFloat ≠ Float.nan := by
  cases n with
  | int n => exact ofInt_ne_nan n
  | float x =>
      rintro rfl
      exact absurd (Decimal.isFinite_nan.symm.trans h) (by decide)

end Number
end Dialogue
