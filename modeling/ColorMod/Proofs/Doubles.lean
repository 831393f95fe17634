import Mathlib
import ColorMod.Scalar.Binary64

/-!
# Doubles that are no numbers

Comparisons tell a double that is no number by its being unequal to itself.  Packing and unpacking
neither make such a double nor lose one (`isNaN_unpack_pack`), so it comes out of a division just
when the division is one of its own kinds (`isNaN_div`).

* `beq_self_iff`: a double equals itself just when it is a number.
* `sixths_beq_self_iff`: a hue can be counted in sixths of the wheel just when it is finite.
-/

namespace ColorMod

open Float.Model

namespace Double

theorem isNaN_unpack {spec : Format} (b : BitVec spec.numBits) :
    (UnpackedFloat.unpack spec b).isNaN = UnpackedFloat.isNaNBits b := by
  unfold UnpackedFloat.unpack UnpackedFloat.isNaNBits
  dsimp only
  split
  · next he =>
    split
    · next hm => simp [UnpackedFloat.isNaN, hm]
    · next hm => simp [UnpackedFloat.isNaN, he, hm]
  · next he =>
    split
    · split <;> simp [UnpackedFloat.isNaN, he]
    · simp [UnpackedFloat.isNaN, he]

/-- What is packed is a number just when it was one. -/
theorem isNaN_unpack_pack (f : UnpackedFloat) : (pack f).unpack.isNaN = f.isNaN := by
  rw [pack, Float.Model.unpack, UInt64.toBitVec_ofBitVec, isNaN_unpack]
  fun_cases UnpackedFloat.pack with
  | case1 => exact UnpackedFloat.isNaNBits_packedNaN
  | case2 s => simp [UnpackedFloat.isNaN, UnpackedFloat.isNaNBits, UnpackedFloat.packedInfinity]
  | case3 s => simp [UnpackedFloat.isNaN, UnpackedFloat.isNaNBits, UnpackedFloat.packedZero]
  | case4 s m e hm biasedExponent h =>
    simp [UnpackedFloat.isNaN, UnpackedFloat.isNaNBits, UnpackedFloat.packedInfinity]
  | case5 s m e hm actualMantissaBits biasedExponent h₁ h₂ =>
    -- the largest exponent is kept for what is not finite
    have hne : BitVec.ofNat 11 biasedExponent ≠ 2047#11 := by
      intro h
      have hval := congrArg BitVec.toNat h
      simp only [BitVec.toNat_ofNat] at hval
      simp only [] at h₁
      omega
    simp [UnpackedFloat.isNaN, UnpackedFloat.isNaNBits, hne]
  | case6 s m e hm actualMantissaBits biasedExponent h₁ h₂ => simp [UnpackedFloat.isNaN, UnpackedFloat.isNaNBits]

/-- A double is a number just when it is equal to itself. -/
theorem beq_self_iff (x : Float) : (x == x) = !x.toModel.unpack.isNaN := by
  change (x == x) = !x.isNaN
  rw [Float.isNaN_eq_decide_eq_nan, Bool.eq_iff_iff, Float.beq_self_iff]
  simp

theorem isNaN_roundWithAccuracy (spec : Format) (s : UnpackedFloat.Sign) (m : Nat) (e : Int)
    (a : UnpackedFloat.Accuracy) :
    (UnpackedFloat.roundWithAccuracy spec s m e a).isNaN = false := by
  unfold UnpackedFloat.roundWithAccuracy
  dsimp only
  split <;> rfl

/-- The quotient of two positive whole numbers is a number. -/
theorem isNaN_nearest (q : Rat) : (nearest q).toModel.unpack.isNaN = false := by
  rw [nearest, isNaN_unpack_pack]
  split
  · exact isNaN_roundWithAccuracy ..
  · rfl

/-- A number divided by a finite number other than zero is a number. -/
theorem isNaN_div {x y : Float} {s : UnpackedFloat.Sign} {m : Nat} {e : Int} {h : 0 < m}
    (hy : y.toModel.unpack = .finite s m e h) :
    (x / y).toModel.unpack.isNaN = x.toModel.unpack.isNaN := by
  change (pack (UnpackedFloat.div .binary64 x.toModel.unpack y.toModel.unpack)).unpack.isNaN = _
  rw [isNaN_unpack_pack, hy]
  cases x.toModel.unpack with
  | notANumber => rfl
  | infinity s => rfl
  | zero s => rfl
  | finite s m e h => exact isNaN_roundWithAccuracy ..

theorem unpack_sixty : (60 : Float).toModel.unpack =
    .finite .positive 8444249301319680 (-47) (by decide) := by
  rfl

/-- A hue can be counted in sixths of the wheel just when it is finite. -/
theorem sixths_beq_self_iff (hue : Float) :
    (Scalar.rem hue 360 / 60 == Scalar.rem hue 360 / 60) = (Scalar.value? hue).isSome := by
  rw [beq_self_iff, isNaN_div unpack_sixty]
  change (!(floatRem hue 360).toModel.unpack.isNaN) = (exactValue? hue).isSome
  have hwheel : exactValue? 360 = some 360 := by decide +kernel
  cases hvalue : exactValue? hue with
  | none =>
    rw [floatRem, hvalue, hwheel]
    decide +kernel
  | some q =>
    rw [floatRem, hvalue, hwheel]
    simp only [isNaN_nearest, Bool.not_false, Option.isSome_some]

end Double

end ColorMod
