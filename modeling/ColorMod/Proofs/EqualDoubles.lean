import ColorMod.Proofs.ChannelLaws

/-!
# Equal doubles

Two doubles are equal when they are the same or both zero, and a double that is no number is not even
equal to itself.  `Agree` is equality without this exception.  Operations cannot tell doubles that
agree from each other, but for the sign of a zero in what they lead to.

* `agree_of_beq`, `Agree.beq_iff`: equal doubles agree, and doubles that agree are equal if they are
  numbers.
* `Agree.clamp_eq`, `Agree.rem_eq`, `Agree.add`, `Agree.mul`: operations on doubles that agree.
* `Rounds.one_le`: what is rounded to one at least.
* `one_le_add_sub`: a number of the unit interval and what is left of one make one at least.
-/

namespace ColorMod

open Scalar

namespace Double

open Float.Model

/-- The doubles are the same, or both are zero. -/
def Agree (x y : Float) : Prop :=
  x = y ∨ exactValue? x = some 0 ∧ exactValue? y = some 0

namespace Agree

variable {x y z : Float}

@[refl] theorem refl (x : Float) : Agree x x :=
  .inl rfl

theorem trans (h : Agree x y) (h' : Agree y z) : Agree x z := by
  rcases h with rfl | ⟨hx, hy⟩
  · exact h'
  · rcases h' with rfl | ⟨-, hz⟩
    · exact .inr ⟨hx, hy⟩
    · exact .inr ⟨hx, hz⟩

theorem exactValue?_eq (h : Agree x y) : exactValue? x = exactValue? y := by
  rcases h with rfl | ⟨hx, hy⟩
  · rfl
  · rw [hx, hy]

/-- Doubles that agree are equal if they are numbers. -/
theorem beq_iff (h : Agree x y) : x == y ↔ x == x := by
  rcases h with rfl | ⟨hx, hy⟩
  · rfl
  · rw [Double.beq_iff hx hy, Double.beq_iff hx hx]

theorem rem_eq (h : Agree x y) (z : Float) : rem x z = rem y z := by
  change floatRem x z = floatRem y z
  rw [floatRem, floatRem, h.exactValue?_eq]

theorem clamp_eq (h : Agree x y) : clamp x = clamp y := by
  have hzero {x : Float} (hx : exactValue? x = some 0) : clamp x = 0 := by
    have hlt : x < 1 := (lt_iff hx exactValue?_one).mpr zero_lt_one
    have hnot : ¬0 < x := (lt_iff exactValue?_zero hx).not.mpr (lt_irrefl 0)
    rw [clamp, clampTo, smaller, if_pos hlt, larger, if_neg hnot]
  rcases h with rfl | ⟨hx, hy⟩
  · rfl
  · rw [hzero hx, hzero hy]

end Agree

theorem agree_of_beq {x y : Float} (h : x == y) : Agree x y := by
  obtain ⟨-, -, rfl | ⟨rfl, rfl⟩ | ⟨rfl, rfl⟩⟩ := Float.beq_iff_ne_nan_and_eq.mp h
  · exact .refl x
  · exact .inr (by decide +kernel)
  · exact .inr (by decide +kernel)

theorem exists_unpack_of_zero {x : Float} (hx : exactValue? x = some 0) :
    ∃ s, x.toModel.unpack = .zero s := by
  obtain ⟨-, hzero⟩ | ⟨s, m, e, h, -, -, -, hvalue⟩ := exists_unpack_of_exactValue? hx
  · exact hzero
  · have hpos : (0 : ℚ) < m * 2 ^ e := by positivity
    rw [mul_assoc] at hvalue
    cases s
    · rw [signOf_negative] at hvalue
      linarith
    · rw [signOf_positive] at hvalue
      linarith

/-- What two zeros lead to agrees, when it is a zero from both or does not depend on the sign. -/
theorem agree_of_unpacked {u u' : UnpackedFloat}
    (h : u = u' ∨ ∃ s t, u = .zero s ∧ u' = .zero t) :
    Agree (.ofModel (pack u)) (.ofModel (pack u')) := by
  rcases h with rfl | ⟨s, t, rfl, rfl⟩
  · exact .refl _
  · exact .inr ⟨exactValue?_pack_zero s, exactValue?_pack_zero t⟩

theorem Agree.mul {x y : Float} (h : Agree x y) (z : Float) : Agree (x * z) (y * z) := by
  rcases h with rfl | ⟨hx, hy⟩
  · exact .refl _
  obtain ⟨s, hx⟩ := exists_unpack_of_zero hx
  obtain ⟨t, hy⟩ := exists_unpack_of_zero hy
  change Agree (.ofModel (pack (UnpackedFloat.mul .binary64 x.toModel.unpack z.toModel.unpack)))
    (.ofModel (pack (UnpackedFloat.mul .binary64 y.toModel.unpack z.toModel.unpack)))
  rw [hx, hy]
  refine agree_of_unpacked ?_
  cases z.toModel.unpack with
  | notANumber => exact .inl rfl
  | infinity u => exact .inl rfl
  | zero u => exact .inr ⟨_, _, rfl, rfl⟩
  | finite u m e hm => exact .inr ⟨_, _, rfl, rfl⟩

theorem Agree.add {x x' y y' : Float} (hx : Agree x x') (hy : Agree y y') :
    Agree (x + y) (x' + y') := by
  have hadd (s t : UnpackedFloat.Sign) :
      ∃ u, UnpackedFloat.add .binary64 (.zero s) (.zero t) = .zero u := by
    cases s <;> cases t <;> exact ⟨_, rfl⟩
  have hleft {x x' : Float} (h : Agree x x') (y : Float) : Agree (x + y) (x' + y) := by
    rcases h with rfl | ⟨hx, hx'⟩
    · exact .refl _
    obtain ⟨s, hx⟩ := exists_unpack_of_zero hx
    obtain ⟨t, hx'⟩ := exists_unpack_of_zero hx'
    change Agree (.ofModel (pack (UnpackedFloat.add .binary64 x.toModel.unpack y.toModel.unpack)))
      (.ofModel (pack (UnpackedFloat.add .binary64 x'.toModel.unpack y.toModel.unpack)))
    rw [hx, hx']
    refine agree_of_unpacked ?_
    cases y.toModel.unpack with
    | notANumber => exact .inl rfl
    | infinity u => exact .inl rfl
    | zero u => exact .inr ⟨_, _, (hadd s u).choose_spec, (hadd t u).choose_spec⟩
    | finite u m e hm => exact .inl rfl
  have hright {y y' : Float} (h : Agree y y') (x : Float) : Agree (x + y) (x + y') := by
    rcases h with rfl | ⟨hy, hy'⟩
    · exact .refl _
    obtain ⟨s, hy⟩ := exists_unpack_of_zero hy
    obtain ⟨t, hy'⟩ := exists_unpack_of_zero hy'
    change Agree (.ofModel (pack (UnpackedFloat.add .binary64 x.toModel.unpack y.toModel.unpack)))
      (.ofModel (pack (UnpackedFloat.add .binary64 x.toModel.unpack y'.toModel.unpack)))
    rw [hy, hy']
    refine agree_of_unpacked ?_
    cases x.toModel.unpack with
    | notANumber => exact .inl rfl
    | infinity u => exact .inl rfl
    | zero u => exact .inr ⟨_, _, (hadd u s).choose_spec, (hadd u t).choose_spec⟩
    | finite u m e hm => exact .inl rfl
  exact (hleft hx y).trans (hright hy x')

theorem Agree.between {x x' y y' : Float} (share : Float) (hx : Agree x x') (hy : Agree y y') :
    Agree (Color.between share x y) (Color.between share x' y') :=
  (hx.mul (1 - share)).add (hy.mul share)

/-! ## Rounding up to one -/

section

variable {v r : ℚ} (h : Rounds v r)

include h

/-- Rounding goes no further than half a unit of the last place. -/
theorem Rounds.exists_abs_sub_le (hv : 0 ≤ v) :
    ∃ k, IsLastPlace v k ∧ |r - v| ≤ 2 ^ k / 2 := by
  obtain ⟨k, hk, heven⟩ := h.even
  have hunit : (0 : ℚ) < 2 ^ k := by positivity
  have hround := Decimal.abs_roundEven_sub_le (v / 2 ^ k)
  rw [abs_of_nonneg hv, abs_of_nonneg (h.nonneg hv)] at heven
  refine ⟨k, hk, ?_⟩
  have hdiff : r - v = (Decimal.roundEven (v / 2 ^ k) - v / 2 ^ k) * 2 ^ k := by
    rw [sub_mul, div_mul_cancel₀ v hunit.ne', heven]
  rw [hdiff, abs_mul, abs_of_pos hunit]
  calc |(Decimal.roundEven (v / 2 ^ k) : ℚ) - v / 2 ^ k| * 2 ^ k ≤ 1 / 2 * 2 ^ k := by gcongr
    _ = 2 ^ k / 2 := by ring

/-- What is no less than half a unit below one is rounded to one at least, as the even neighbour. -/
theorem Rounds.one_le (hv : 1 - 1 / 2 ^ 54 ≤ v) : 1 ≤ r := by
  have hpos : (1 : ℚ) / 2 < v := lt_of_lt_of_le (by norm_num) hv
  have habs : |v| = v := abs_of_pos (by linarith)
  have hr : |r| = r := abs_of_nonneg (h.nonneg (by linarith))
  by_cases hone : 1 ≤ v
  · obtain ⟨k, hk, heven⟩ := h.even
    have hlt := hk.lt
    rw [habs] at hlt
    have hplace : -53 < k := by
      have hpow : (2 : ℚ) ^ (-53 : ℤ) < 2 ^ k := by
        rw [zpow_neg, inv_lt_iff_one_lt_mul₀ (by positivity), mul_comm]
        exact hone.trans_lt hlt
      exact (zpow_lt_zpow_iff_right₀ one_lt_two).mp hpow
    have hnormal := hk.normal.resolve_right (by omega)
    rw [habs, ← le_div_iff₀ (by positivity)] at hnormal
    have hround : 2 ^ 52 ≤ Decimal.roundEven (v / 2 ^ k) :=
      Decimal.le_roundEven (by exact_mod_cast hnormal)
    rw [hr, habs] at heven
    calc (1 : ℚ) = 2 ^ 52 * 2 ^ (-52 : ℤ) := by norm_num
      _ ≤ 2 ^ 52 * 2 ^ k := by
        gcongr
        · norm_num
        · omega
      _ ≤ Decimal.roundEven (v / 2 ^ k) * 2 ^ k := by
        gcongr
        exact_mod_cast hround
      _ = r := heven.symm
  · have hplace : IsLastPlace v (-53) := by
      refine ⟨?_, by decide, .inl ?_⟩
      · rw [habs]
        norm_num
        linarith
      · rw [habs]
        norm_num
        linarith
    have heven := h.abs_eq hplace
    have hround : 2 ^ 53 ≤ Decimal.roundEven (v / 2 ^ (-53 : ℤ)) := by
      refine not_lt.mp ((Decimal.roundEven_lt_iff (by decide)).not.mpr (not_lt.mpr ?_))
      rw [le_div_iff₀ (by positivity)]
      norm_num at hv ⊢
      exact hv
    rw [hr, habs] at heven
    calc (1 : ℚ) = 2 ^ 53 * 2 ^ (-53 : ℤ) := by norm_num
      _ ≤ Decimal.roundEven (v / 2 ^ (-53 : ℤ)) * 2 ^ (-53 : ℤ) := by
        gcongr
        exact_mod_cast hround
      _ = r := heven.symm

/-- A number that is as large as some double is not rounded to zero. -/
theorem Rounds.ne_zero (hv : 2 ^ (-1074 : ℤ) ≤ |v|) : r ≠ 0 := by
  obtain ⟨k, hk, heven⟩ := h.even
  have hunit : (0 : ℚ) < 2 ^ k := by positivity
  have hone : (1 : ℤ) ≤ Decimal.roundEven (|v| / 2 ^ k) := by
    refine Decimal.le_roundEven ?_
    rw [le_div_iff₀ hunit, Int.cast_one, one_mul]
    rcases hk.normal with hnormal | rfl
    · exact (le_mul_of_one_le_left hunit.le (by norm_num)).trans hnormal
    · exact hv
  have hpos : (0 : ℚ) < Decimal.roundEven (|v| / 2 ^ k) := by exact_mod_cast hone
  rw [← abs_pos, heven]
  positivity

end

section

variable {x y : Float} {p q : ℚ}

/-- A double is a multiple of the least positive one. -/
theorem exists_multiple (hx : exactValue? x = some p) : ∃ n : ℤ, p = n * 2 ^ (-1074 : ℤ) := by
  obtain ⟨rfl, -⟩ | ⟨s, m, e, h, -, hdouble, -, rfl⟩ := exists_unpack_of_exactValue? hx
  · exact ⟨0, by rw [Int.cast_zero, zero_mul]⟩
  · exact exists_multiple_of_le s m hdouble.le

/-- Only equal doubles have no difference. -/
theorem eq_of_sub_beq_zero (hx : exactValue? x = some p) (hy : exactValue? y = some q)
    (hsmall : |p - q| < 2 ^ (1023 : ℤ)) (h : x - y == 0) : p = q := by
  obtain ⟨r, hr, hrounds⟩ := exists_sub hx hy hsmall
  have hzero : r = 0 := (beq_iff hr exactValue?_zero).mp h
  by_contra hne
  obtain ⟨m, hm⟩ := exists_multiple hx
  obtain ⟨n, hn⟩ := exists_multiple hy
  refine hrounds.ne_zero ?_ hzero
  have hone : (1 : ℚ) ≤ |((m - n : ℤ) : ℚ)| := by
    have hdiff : m - n ≠ 0 := by
      intro h
      rw [sub_eq_zero] at h
      exact hne (by rw [hm, hn, h])
    exact_mod_cast Int.one_le_abs hdiff
  have hvalue : p - q = ((m - n : ℤ) : ℚ) * 2 ^ (-1074 : ℤ) := by
    rw [hm, hn, Int.cast_sub, sub_mul]
  rw [hvalue, abs_mul, abs_of_pos (by positivity : (0 : ℚ) < 2 ^ (-1074 : ℤ))]
  exact le_mul_of_one_le_left (by positivity) hone

/-- A number of the unit interval and what is left of one, clamped, make one at least. -/
theorem one_le_add_sub (hx : exactValue? x = some q) (hy : exactValue? y = some q) (h0 : 0 ≤ q)
    (h1 : q ≤ 1) : 1 ≤ x + clamp (1 - y) := by
  have hrest : |1 - q| ≤ 1 := by
    rw [abs_le]
    constructor <;> linarith
  obtain ⟨r, hr, hrounds⟩ := exists_sub exactValue?_one hy (abs_lt_of_le hrest (by norm_num))
  have hnonneg := hrounds.nonneg (by linarith)
  have hclamp : clamp r = min r 1 := by
    rw [clamp, clampTo, larger_eq_max, smaller_eq_min, min_comm]
    exact max_eq_right (le_min hnonneg zero_le_one)
  have hvalue := exactValue?_clamp hr
  rw [hclamp] at hvalue
  have hbound : |q + min r 1| ≤ 2 := by
    have hle := min_le_right r 1
    have hge : 0 ≤ min r 1 := le_min hnonneg zero_le_one
    rw [abs_le]
    constructor <;> linarith
  obtain ⟨s, hs, hsum⟩ := exists_add hx hvalue (abs_lt_of_le hbound (by norm_num))
  rw [le_iff exactValue?_one hs]
  refine hsum.one_le ?_
  by_cases hnear : 1 - 1 / 2 ^ 54 ≤ 1 - q
  · rw [min_eq_right (hrounds.one_le hnear)]
    have : (0 : ℚ) < 1 / 2 ^ 54 := by positivity
    linarith
  · obtain ⟨k, hk, hhalf⟩ := hrounds.exists_abs_sub_le (by linarith)
    have hplace : (2 : ℚ) ^ k / 2 ≤ 1 / 2 ^ 54 := by
      rcases hk.normal with hnormal | rfl
      · have hlt : (2 : ℚ) ^ k < 2 ^ (-52 : ℤ) := by
          rw [abs_of_nonneg (by linarith)] at hnormal
          rw [zpow_neg, ← one_div, lt_div_iff₀ (by positivity), mul_comm]
          rw [not_le] at hnear
          exact hnormal.trans_lt (hnear.trans (by norm_num))
        have hle : (2 : ℚ) ^ k ≤ 2 ^ (-53 : ℤ) := by
          rw [zpow_lt_zpow_iff_right₀ one_lt_two] at hlt
          exact zpow_le_zpow_right₀ one_le_two (by omega)
        calc (2 : ℚ) ^ k / 2 ≤ 2 ^ (-53 : ℤ) / 2 := by gcongr
          _ = 1 / 2 ^ 54 := by norm_num
      · calc (2 : ℚ) ^ (-1074 : ℤ) / 2 ≤ 2 ^ (-53 : ℤ) / 2 := by gcongr <;> norm_num
          _ = 1 / 2 ^ 54 := by norm_num
    have hlow := (abs_le.mp hhalf).1
    rcases min_choice r 1 with hmin | hmin
    · rw [hmin]
      linarith
    · rw [hmin]
      have : (0 : ℚ) < 1 / 2 ^ 54 := by positivity
      linarith

end

end Double

end ColorMod
