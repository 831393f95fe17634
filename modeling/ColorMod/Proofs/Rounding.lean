import ColorMod.Proofs.Doubles
import ColorMod.Proofs.Numerals

/-!
# Rounding to doubles

A double has a significand of at most 53 bits and an exponent of `-1074` to `971`, and a significand
of fewer bits has the least exponent (`IsDouble`).  A number that is known up to what lies behind a
significand is rounded to its last place, a half to the even neighbour.

* `exactValue?_pack`: what the double of a significand and an exponent stands for.
* `Tells.roundedMantissa_eq`: two bits tell enough of what lies behind a significand to round it.
* `Rounds`: which double a number is rounded to, and how far away it is.
* `exists_rounds_roundWithAccuracy`: a number that is told by a significand is rounded so.
-/

namespace ColorMod.Double

open Float.Model
open UnpackedFloat (packComponents unpackSign unpackExponent unpackMantissa)

/-! ## Significands and exponents -/

/-- The significand and the exponent of a finite double other than zero. -/
structure IsDouble (m : ℕ) (e : ℤ) : Prop where
  lt : m < 2 ^ 53
  le : -1074 ≤ e
  normal : 2 ^ 52 ≤ m ∨ e = -1074

section

variable {s : UnpackedFloat.Sign} {exponent : BitVec 11} {mantissa : BitVec 52}

theorem unpackSign_packComponents :
    UnpackedFloat.Sign.ofBitVec (unpackSign (packComponents .binary64 s exponent mantissa)) = s := by
  rw [unpackSign, packComponents, BitVec.extractLsb,
    BitVec.extractLsb'_append_eq_of_le (by decide), BitVec.extractLsb'_append_eq_of_le (by decide)]
  cases s <;> rfl

theorem toNat_one_append (mantissa : BitVec 52) :
    (1#1 ++ mantissa).toNat = 2 ^ 52 + mantissa.toNat := by
  rw [BitVec.toNat_append, ← Nat.shiftLeft_add_eq_or_of_lt mantissa.isLt]
  rfl

theorem unpack_of_normal (hzero : exponent ≠ 0#11) (hones : exponent ≠ -1#11) :
    ∃ h, UnpackedFloat.unpack .binary64 (packComponents .binary64 s exponent mantissa) =
      .finite s (2 ^ 52 + mantissa.toNat) (exponent.toNat - 1075) h := by
  refine ⟨by positivity, ?_⟩
  rw [UnpackedFloat.unpack]
  simp only [UnpackedFloat.unpackExponent_packComponents,
    UnpackedFloat.unpackMantissa_packComponents, unpackSign_packComponents, if_neg hzero,
    if_neg hones, toNat_one_append]
  rfl

theorem unpack_of_subnormal (hmantissa : mantissa ≠ 0#52) :
    ∃ h, UnpackedFloat.unpack .binary64 (packComponents .binary64 s 0#11 mantissa) =
      .finite s mantissa.toNat (-1074) h := by
  refine ⟨?_, ?_⟩
  · exact Nat.pos_of_ne_zero fun h => hmantissa (BitVec.eq_of_toNat_eq h)
  · have hones : (0#11 : BitVec 11) ≠ -1#11 := by decide
    rw [UnpackedFloat.unpack]
    simp only [UnpackedFloat.unpackExponent_packComponents,
      UnpackedFloat.unpackMantissa_packComponents, unpackSign_packComponents, if_pos, if_neg hones,
      dif_neg hmantissa]
    rfl

end

/-- Packing keeps the significand and the exponent of a double. -/
theorem unpack_pack_finite (s : UnpackedFloat.Sign) {m : ℕ} {e : ℤ} (h : 0 < m)
    (hd : IsDouble m e) (he : e ≤ 971) :
    (pack (.finite s m e h)).unpack = .finite s m e h := by
  obtain ⟨hlt, hle, hnormal⟩ := hd
  have hbiased : (e + (Format.exponentBias .binary64 : ℕ) + (52 : ℕ)).toNat = (e + 1075).toNat := by
    rw [show Format.exponentBias .binary64 = 1023 from rfl]
    congr 1
    push_cast
    ring
  rw [pack, Float.Model.unpack, UInt64.toBitVec_ofBitVec, UnpackedFloat.pack]
  dsimp only
  rw [hbiased, if_neg (by omega)]
  have hlog : m.log2 + 1 = Format.mantissaBits .binary64 ↔ 2 ^ 52 ≤ m := by
    rw [show Format.mantissaBits .binary64 = 52 + 1 from rfl, Nat.add_right_cancel_iff,
      Nat.log2_eq_iff h.ne']
    omega
  split
  · next hbits =>
    have hm := hlog.mp hbits
    have hexponent : (BitVec.ofNat 11 (e + 1075).toNat).toNat = (e + 1075).toNat := by
      rw [BitVec.toNat_ofNat, Nat.mod_eq_of_lt (by omega)]
    have hzero : BitVec.ofNat 11 (e + 1075).toNat ≠ 0#11 := by
      intro heq
      rw [heq] at hexponent
      simp only [BitVec.toNat_ofNat] at hexponent
      omega
    have hones : BitVec.ofNat 11 (e + 1075).toNat ≠ -1#11 := by
      intro heq
      rw [heq] at hexponent
      have h2047 : (-1#11).toNat = 2047 := by decide
      omega
    obtain ⟨h', hunpack⟩ := @unpack_of_normal s _ (BitVec.ofNat 52 m) hzero hones
    refine hunpack.trans ?_
    congr 1
    · rw [BitVec.toNat_ofNat]
      omega
    · rw [hexponent]
      omega
  · next hbits =>
    have hm : m < 2 ^ 52 := not_le.mp fun hle => hbits (hlog.mpr hle)
    obtain rfl : e = -1074 := hnormal.resolve_left (not_le.mpr hm)
    have hmantissa : (BitVec.ofNat 52 m).toNat = m := by
      rw [BitVec.toNat_ofNat, Nat.mod_eq_of_lt hm]
    have hne : BitVec.ofNat 52 m ≠ 0#52 := by
      intro heq
      rw [heq] at hmantissa
      simp only [BitVec.toNat_ofNat] at hmantissa
      omega
    obtain ⟨h', hunpack⟩ := unpack_of_subnormal (s := s) hne
    refine hunpack.trans ?_
    congr 1

/-- What is unpacked is a double. -/
theorem isDouble_of_unpack {x : Float.Model} {s : UnpackedFloat.Sign} {m : ℕ} {e : ℤ} {h : 0 < m}
    (hx : x.unpack = .finite s m e h) : IsDouble m e ∧ e ≤ 971 := by
  unfold Float.Model.unpack UnpackedFloat.unpack at hx
  dsimp only at hx
  have hmantissa := (@unpackMantissa .binary64 x.toBits.toBitVec).isLt
  change (@unpackMantissa .binary64 x.toBits.toBitVec).toNat < 2 ^ 52 at hmantissa
  split at hx
  · split at hx <;> cases hx
  · next hinfinite =>
    split at hx
    · next hzero =>
      split at hx
      · cases hx
      · cases hx
        rw [hzero]
        exact ⟨⟨by omega, by decide, .inr rfl⟩, by decide⟩
    · next hzero =>
      cases hx
      have hpos : (@unpackExponent .binary64 x.toBits.toBitVec).toNat ≠ 0 :=
        fun heq => hzero (BitVec.eq_of_toNat_eq heq)
      have hones : (@unpackExponent .binary64 x.toBits.toBitVec).toNat ≠ 2047 :=
        fun heq => hinfinite (BitVec.eq_of_toNat_eq heq)
      have hlt := (@unpackExponent .binary64 x.toBits.toBitVec).isLt
      change (@unpackExponent .binary64 x.toBits.toBitVec).toNat < 2 ^ 11 at hlt
      rw [toNat_one_append]
      refine ⟨⟨by omega, ?_, .inl (by omega)⟩, ?_⟩
      · change -1074 ≤ ((@unpackExponent .binary64 x.toBits.toBitVec).toNat : ℤ) - 1075
        omega
      · change ((@unpackExponent .binary64 x.toBits.toBitVec).toNat : ℤ) - 1075 ≤ 971
        omega

/-! ## Values -/

/-- The sign as a factor. -/
def signOf (s : UnpackedFloat.Sign) : ℚ :=
  s.apply 1

@[simp] theorem signOf_negative : signOf .negative = -1 := rfl

@[simp] theorem signOf_positive : signOf .positive = 1 := rfl

theorem abs_signOf (s : UnpackedFloat.Sign) : |signOf s| = 1 := by
  cases s <;> simp

theorem apply_eq (s : UnpackedFloat.Sign) (n : ℤ) : (s.apply n : ℚ) = signOf s * n := by
  cases s
  · simp [UnpackedFloat.Sign.apply, signOf]
  · simp [UnpackedFloat.Sign.apply, signOf]

/-- A number with an exponent is a multiple of any lesser power of two. -/
theorem exists_multiple_of_le (s : UnpackedFloat.Sign) (m : ℕ) {j e : ℤ} (h : j ≤ e) :
    ∃ n : ℤ, signOf s * m * 2 ^ e = n * 2 ^ j := by
  have hpow : (2 : ℚ) ^ (e - j).toNat * 2 ^ j = 2 ^ e := by
    rw [← zpow_natCast, ← zpow_add₀ two_ne_zero]
    congr 1
    omega
  refine ⟨s.apply m * 2 ^ (e - j).toNat, ?_⟩
  rw [Int.cast_mul, Int.cast_pow, Int.cast_ofNat, apply_eq, Int.cast_natCast,
    mul_assoc _ ((2 : ℚ) ^ _), hpow]

theorem exactValue?_of_unpack {x : Float} {s : UnpackedFloat.Sign} {m : ℕ} {e : ℤ} {h : 0 < m}
    (hx : x.toModel.unpack = .finite s m e h) : exactValue? x = some (signOf s * m * 2 ^ e) := by
  have hpow : (2 : ℚ) ^ e.toNat / 2 ^ (-e).toNat = 2 ^ e := by
    rw [← zpow_natCast, ← zpow_natCast, ← zpow_sub₀ (by norm_num)]
    congr 1
    omega
  rw [exactValue?, hx]
  dsimp only
  rw [Rat.mkRat_eq_div, apply_eq, Nat.pow_eq, Nat.pow_eq]
  push_cast
  rw [mul_div_assoc, mul_div_assoc, hpow, mul_assoc]

theorem exactValue?_of_zero {x : Float} {s : UnpackedFloat.Sign} (hx : x.toModel.unpack = .zero s) :
    exactValue? x = some 0 := by
  rw [exactValue?, hx]

/-- The double that is packed from a significand and an exponent. -/
theorem exactValue?_pack (s : UnpackedFloat.Sign) {m : ℕ} {e : ℤ} (h : 0 < m) (hd : IsDouble m e)
    (he : e ≤ 971) :
    exactValue? (.ofModel (pack (.finite s m e h))) = some (signOf s * m * 2 ^ e) :=
  exactValue?_of_unpack (unpack_pack_finite s h hd he)

theorem exactValue?_pack_zero (s : UnpackedFloat.Sign) :
    exactValue? (.ofModel (pack (.zero s))) = some 0 := by
  cases s <;> decide +kernel

/-- A finite double is zero or has a significand and an exponent. -/
theorem exists_unpack_of_exactValue? {x : Float} {q : ℚ} (hx : exactValue? x = some q) :
    (q = 0 ∧ ∃ s, x.toModel.unpack = .zero s) ∨
      ∃ s m e h, x.toModel.unpack = .finite s m e h ∧ IsDouble m e ∧ e ≤ 971 ∧
        q = signOf s * m * 2 ^ e := by
  cases hunpack : x.toModel.unpack with
  | notANumber => rw [exactValue?, hunpack] at hx; cases hx
  | infinity s => rw [exactValue?, hunpack] at hx; cases hx
  | zero s =>
    rw [exactValue?_of_zero hunpack] at hx
    exact .inl ⟨(Option.some.inj hx).symm, s, rfl⟩
  | finite s m e h =>
    rw [exactValue?_of_unpack hunpack] at hx
    obtain ⟨hdouble, hle⟩ := isDouble_of_unpack hunpack
    exact .inr ⟨s, m, e, h, rfl, hdouble, hle, (Option.some.inj hx).symm⟩

/-! ## Rounding -/

/-- The exponent of the last place that a number has in a double. -/
structure IsLastPlace (v : ℚ) (k : ℤ) : Prop where
  lt : |v| < 2 ^ 53 * 2 ^ k
  le : -1074 ≤ k
  normal : 2 ^ 52 * 2 ^ k ≤ |v| ∨ k = -1074

/-- A larger last place begins where a smaller one ends, or later. -/
theorem two_pow_mul_two_zpow_le {j k : ℤ} (h : j < k) :
    (2 : ℚ) ^ 53 * 2 ^ j ≤ 2 ^ 52 * 2 ^ k := by
  rw [pow_succ, mul_assoc, mul_comm (2 : ℚ), ← zpow_add_one₀ two_ne_zero]
  gcongr
  · norm_num
  · exact h

theorem IsLastPlace.unique {v : ℚ} {j k : ℤ} (hj : IsLastPlace v j) (hk : IsLastPlace v k) :
    j = k := by
  -- a smaller exponent would leave too few places for the number
  have hnot {j k : ℤ} (hj : IsLastPlace v j) (hk : IsLastPlace v k) : ¬j < k := by
    intro hlt
    have hle := hj.le
    have hnormal := hk.normal.resolve_right (by omega)
    exact absurd hj.lt (not_lt.mpr ((two_pow_mul_two_zpow_le hlt).trans hnormal))
  have := hnot hj hk
  have := hnot hk hj
  omega

/-- The number `r` is `v` rounded to its last place, a half to the even neighbour: it is near `v`,
and on the same side of zero. -/
structure Rounds (v r : ℚ) : Prop where
  near : |r - v| ≤ max (|v| * 2 ^ (-52 : ℤ)) (2 ^ (-1074 : ℤ))
  nonneg : 0 ≤ v → 0 ≤ r
  nonpos : v ≤ 0 → r ≤ 0
  even : ∃ k, IsLastPlace v k ∧ |r| = Decimal.roundEven (|v| / 2 ^ k) * 2 ^ k

theorem Rounds.abs_eq {v r : ℚ} {k : ℤ} (h : Rounds v r) (hk : IsLastPlace v k) :
    |r| = Decimal.roundEven (|v| / 2 ^ k) * 2 ^ k := by
  obtain ⟨j, hj, heven⟩ := h.even
  rw [← hj.unique hk]
  exact heven

/-- A double is rounded to itself. -/
theorem Rounds.of_isDouble (s : UnpackedFloat.Sign) {m : ℕ} {e : ℤ} (h : IsDouble m e) :
    Rounds (signOf s * m * 2 ^ e) (signOf s * m * 2 ^ e) := by
  obtain ⟨hlt, hle, hnormal⟩ := h
  have hunit : (0 : ℚ) < 2 ^ e := by positivity
  have habs : |signOf s * m * 2 ^ e| = m * 2 ^ e := by
    rw [mul_assoc, abs_mul, abs_signOf, one_mul, abs_of_nonneg (by positivity)]
  refine ⟨by rw [sub_self, abs_zero]; positivity, id, id, e, ⟨?_, hle, ?_⟩, ?_⟩
  · rw [habs]
    gcongr
    exact_mod_cast hlt
  · rw [habs]
    refine hnormal.imp_left fun h => ?_
    gcongr
    exact_mod_cast h
  · have hround : Decimal.roundEven (m : ℚ) = m :=
      Decimal.roundEven_eq_of_abs_sub_lt (by simp)
    rw [habs, mul_div_cancel_right₀ _ hunit.ne', hround, Int.cast_natCast]

theorem Rounds.zero : Rounds 0 0 := by
  have h := Rounds.of_isDouble .positive (m := 0) (e := -1074) ⟨by decide, le_rfl, .inr rfl⟩
  rwa [Nat.cast_zero, mul_zero, zero_mul] at h

/-- The exponent of the last place that a number with a significand of any size is rounded to. -/
def lastPlace (m : ℕ) (e : ℤ) : ℤ :=
  max (m.log2 + e - 52) (-1074)

theorem targetExponent_eq (m : ℕ) (e : ℤ) :
    Format.binary64.targetExponent (totalExponent m e) = lastPlace m e := by
  have hmin : Format.minExponent .binary64 = -1074 := by decide
  have hbits : (Format.mantissaBits .binary64 : ℤ) = 53 := rfl
  rw [Format.targetExponent, totalExponent, hmin, hbits, lastPlace]
  congr 1
  ring

theorem lastPlace_of_lt {m : ℕ} {e : ℤ} (hm : m < 2 ^ 53) (he : -1074 ≤ e) :
    lastPlace m e ≤ e := by
  have hlog : m.log2 < 53 := by
    rcases Nat.eq_zero_or_pos m with rfl | h
    · rw [Nat.log2_zero]
      decide
    · exact (Nat.log2_lt h.ne').mpr hm
  rw [lastPlace]
  omega

theorem lastPlace_two_pow {e : ℤ} (he : -1074 ≤ e) : lastPlace (2 ^ 53) e = e + 1 := by
  rw [lastPlace, Nat.log2_two_pow]
  omega

section

variable {m : ℕ} {e : ℤ}

/-- The number `x` has the significand of `em` in front, and what lies behind it is as the two bits
say: the first whether it is a half at least, the second whether it is neither nothing nor a half. -/
def Tells (em : UnpackedFloat.ExtendedMantissa) (x : ℚ) : Prop :=
  match em with
  | ⟨m, false, false⟩ => x = m
  | ⟨m, false, true⟩ => m < x ∧ x < m + 1 / 2
  | ⟨m, true, false⟩ => x = m + 1 / 2
  | ⟨m, true, true⟩ => m + 1 / 2 < x ∧ x < m + 1

section

variable {em : UnpackedFloat.ExtendedMantissa} {x : ℚ}

theorem tells_exact (m : ℕ) :
    Tells (UnpackedFloat.ExtendedMantissa.ofMantissaAndAccuracy m .exact) m :=
  rfl

/-- A remainder tells where the quotient lies. -/
theorem tells_accuracyOfFraction (m : ℕ) {n d : ℕ} (h : n < d) :
    Tells (UnpackedFloat.ExtendedMantissa.ofMantissaAndAccuracy m
      (UnpackedFloat.accuracyOfFraction n d)) (m + n / d) := by
  have hd : (0 : ℚ) < d := by exact_mod_cast Nat.zero_lt_of_lt h
  have hlt : (n : ℚ) < d := by exact_mod_cast h
  rw [UnpackedFloat.accuracyOfFraction]
  split
  · next hzero =>
    rw [hzero, Nat.cast_zero, zero_div, add_zero]
    exact tells_exact m
  · next hzero =>
    have hpos : (0 : ℚ) < n := by exact_mod_cast Nat.pos_of_ne_zero hzero
    rcases hcompare : compare (2 * n) d with _ | _ | _
    · have hhalf : (2 * n : ℚ) < d := by exact_mod_cast compare_lt_iff_lt.mp hcompare
      refine ⟨lt_add_of_pos_right _ (by positivity), (add_lt_add_iff_left _).mpr ?_⟩
      rw [div_lt_div_iff₀ hd two_pos]
      linarith
    · have hhalf : (2 * n : ℚ) = d := by exact_mod_cast compare_eq_iff_eq.mp hcompare
      refine (add_right_inj _).mpr ?_
      rw [div_eq_div_iff hd.ne' two_ne_zero]
      linarith
    · have hhalf : (d : ℚ) < 2 * n := by exact_mod_cast compare_gt_iff_gt.mp hcompare
      refine ⟨(add_lt_add_iff_left _).mpr ?_, (add_lt_add_iff_left _).mpr ((div_lt_one hd).mpr hlt)⟩
      rw [div_lt_div_iff₀ two_pos hd]
      linarith

theorem Tells.mem (h : Tells em x) : em.mantissa ≤ x ∧ x < em.mantissa + 1 := by
  obtain ⟨m, roundBit, stickyBit⟩ := em
  cases roundBit <;> cases stickyBit <;> simp only [Tells] at h ⊢ <;> constructor <;> linarith

theorem Tells.shiftRightOne (h : Tells em x) : Tells em.shiftRightOne (x / 2) := by
  obtain ⟨m, roundBit, stickyBit⟩ := em
  obtain ⟨k, rfl | rfl⟩ : ∃ k, m = 2 * k ∨ m = 2 * k + 1 := ⟨m / 2, by omega⟩
  · have hhalf : 2 * k / 2 = k := by omega
    cases roundBit <;> cases stickyBit <;>
      simp [Tells, UnpackedFloat.ExtendedMantissa.shiftRightOne, hhalf] at h ⊢ <;>
      first | constructor <;> linarith | linarith
  · have hhalf : (2 * k + 1) / 2 = k := by omega
    have hodd : (2 * k + 1) % 2 = 1 := by omega
    cases roundBit <;> cases stickyBit <;>
      simp [Tells, UnpackedFloat.ExtendedMantissa.shiftRightOne, hhalf, hodd] at h ⊢ <;>
      first | constructor <;> linarith | linarith

/-- Shifting keeps what there is to tell. -/
theorem Tells.shiftRight (h : Tells em x) (k : ℕ) : Tells (em >>> k) (x / 2 ^ k) := by
  induction k with
  | zero => rwa [pow_zero, div_one]
  | succ k ih =>
    rw [pow_succ, ← div_div]
    exact ih.shiftRightOne

/-- The two bits tell enough to round to the nearest integer. -/
theorem Tells.roundedMantissa_eq (h : Tells em x) :
    (em.roundedMantissa : ℤ) = Decimal.roundEven x := by
  have hfloor : x.floor = em.mantissa := by
    change ⌊x⌋ = _
    exact Int.floor_eq_iff.mpr h.mem
  have hparity (m : ℕ) : ((m : ℤ) % 2 = 0 ↔ m % 2 = 0) := by omega
  rw [Decimal.roundEven, hfloor]
  obtain ⟨m, roundBit, stickyBit⟩ := em
  cases roundBit <;> cases stickyBit <;> simp only [Tells] at h <;> dsimp only
  · rw [if_pos (by rw [h]; norm_num)]
    rfl
  · rw [if_pos (by push_cast; linarith)]
    rfl
  · rw [if_neg (by rw [h]; push_cast; linarith), if_neg (by rw [h]; push_cast; linarith)]
    change ((m + m % 2 : ℕ) : ℤ) = _
    split <;> omega
  · rw [if_neg (by push_cast; linarith), if_pos (by push_cast; linarith)]
    rfl

end

theorem mantissa_shiftRight (em : UnpackedFloat.ExtendedMantissa) (k : ℕ) :
    (em >>> k).mantissa = em.mantissa / 2 ^ k := by
  induction k with
  | zero => exact (Nat.div_one _).symm
  | succ k ih =>
    change (em >>> k).mantissa / 2 = _
    rw [ih, Nat.div_div_eq_div_mul, pow_succ]

theorem roundedMantissa_mem (em : UnpackedFloat.ExtendedMantissa) :
    em.mantissa ≤ em.roundedMantissa ∧ em.roundedMantissa ≤ em.mantissa + 1 := by
  obtain ⟨m, roundBit, stickyBit⟩ := em
  have hparity := Nat.mod_lt m (by decide : 2 > 0)
  cases roundBit <;> cases stickyBit
  · exact ⟨le_rfl, Nat.le_succ m⟩
  · exact ⟨le_rfl, Nat.le_succ m⟩
  · change m ≤ m + m % 2 ∧ m + m % 2 ≤ m + 1
    omega
  · exact ⟨Nat.le_succ m, le_rfl⟩

theorem mantissa_ofMantissaAndAccuracy (m : ℕ) (a : UnpackedFloat.Accuracy) :
    (UnpackedFloat.ExtendedMantissa.ofMantissaAndAccuracy m a).mantissa = m := by
  rcases a with _ | _ | _ | _ <;> rfl

theorem shiftToTargetExponent_eq (m : ℕ) (e : ℤ) (a : UnpackedFloat.Accuracy) :
    ∃ em : UnpackedFloat.ExtendedMantissa,
      UnpackedFloat.shiftToTargetExponent .binary64 m e a =
        (em, e + (lastPlace m e - e).toNat) ∧
      em.mantissa = m / 2 ^ (lastPlace m e - e).toNat ∧
      ∀ x, Tells (UnpackedFloat.ExtendedMantissa.ofMantissaAndAccuracy m a) x →
        Tells em (x / 2 ^ (lastPlace m e - e).toNat) := by
  refine ⟨UnpackedFloat.ExtendedMantissa.ofMantissaAndAccuracy m a >>> (lastPlace m e - e).toNat,
    ?_, ?_, fun x h => h.shiftRight _⟩
  · rw [UnpackedFloat.shiftToTargetExponent, targetExponent_eq, UnpackedFloat.shiftToExponent]
  · rw [mantissa_shiftRight, mantissa_ofMantissaAndAccuracy]

/-- The significand that is left of a number when it is cut off at the last place. -/
theorem cutOff_mem (he : e ≤ lastPlace m e) :
    m / 2 ^ (lastPlace m e - e).toNat < 2 ^ 53 ∧
      (2 ^ 52 ≤ m / 2 ^ (lastPlace m e - e).toNat ∨ lastPlace m e = -1074) := by
  have hplace : lastPlace m e = m.log2 + e - 52 ∨
      m.log2 + e - 52 < -1074 ∧ lastPlace m e = -1074 := by
    rw [lastPlace]
    omega
  constructor
  · rw [Nat.div_lt_iff_lt_mul (by positivity), ← pow_add]
    exact (Nat.lt_log2_self (n := m)).trans_le (Nat.pow_le_pow_right (by decide) (by omega))
  · rcases hplace with h | h
    · have hk : (lastPlace m e - e).toNat + 52 = m.log2 := by omega
      have hm : m ≠ 0 := by
        rintro rfl
        rw [Nat.log2_zero] at h hk
        omega
      refine .inl ?_
      rw [Nat.le_div_iff_mul_le (by positivity), ← pow_add, add_comm, hk]
      exact Nat.log2_self_le hm
    · exact .inr h.2

/-- Shifting out the digits behind the last place. -/
theorem mul_two_pow_mul_two_zpow (he : e ≤ lastPlace m e) (x : ℚ) :
    x * 2 ^ (lastPlace m e - e).toNat * 2 ^ e = x * 2 ^ lastPlace m e := by
  have hk : ((lastPlace m e - e).toNat : ℤ) + e = lastPlace m e := by omega
  rw [mul_assoc, ← zpow_natCast, ← zpow_add₀ (by norm_num), hk]

/-- Rounding up may fill one bit more, and the second shift makes room for it. -/
theorem exists_roundWithAccuracy (s : UnpackedFloat.Sign) (he : e ≤ lastPlace m e)
    {a : UnpackedFloat.Accuracy} {x : ℚ}
    (h : Tells (UnpackedFloat.ExtendedMantissa.ofMantissaAndAccuracy m a) x) : ∃ r : ℕ,
    (m / 2 ^ (lastPlace m e - e).toNat ≤ r ∧ r ≤ m / 2 ^ (lastPlace m e - e).toNat + 1) ∧
    (r : ℤ) = Decimal.roundEven (x / 2 ^ (lastPlace m e - e).toNat) ∧
    (r = 0 ∧ UnpackedFloat.roundWithAccuracy .binary64 s m e a = .zero s ∨
      ∃ m' e' h, UnpackedFloat.roundWithAccuracy .binary64 s m e a = .finite s m' e' h ∧
        IsDouble m' e' ∧ e' ≤ lastPlace m e + 1 ∧
        (m' : ℚ) * 2 ^ e' = r * 2 ^ lastPlace m e) := by
  obtain ⟨em, hshift, hem, htells⟩ := shiftToTargetExponent_eq m e a
  obtain ⟨hlow, hhigh⟩ := roundedMantissa_mem em
  obtain ⟨hlt, hnormal⟩ := cutOff_mem he
  rw [hem] at hlow hhigh
  refine ⟨em.roundedMantissa, ⟨hlow, hhigh⟩, (htells x h).roundedMantissa_eq, ?_⟩
  have hplace : e + ((lastPlace m e - e).toNat : ℤ) = lastPlace m e := by omega
  have hleast : -1074 ≤ lastPlace m e := le_max_right _ _
  obtain ⟨em', hshift', hem', -⟩ := shiftToTargetExponent_eq em.roundedMantissa (lastPlace m e) .exact
  rw [UnpackedFloat.roundWithAccuracy, hshift, hplace]
  dsimp only
  rw [hshift']
  dsimp only
  rcases Nat.lt_or_ge em.roundedMantissa (2 ^ 53) with hsmall | hlarge
  · have hstay : (lastPlace em.roundedMantissa (lastPlace m e) - lastPlace m e).toNat = 0 := by
      have := lastPlace_of_lt hsmall hleast
      omega
    rw [hstay, pow_zero, Nat.div_one] at hem'
    split
    · next hzero => exact .inl ⟨hem'.symm.trans hzero, rfl⟩
    · next hzero =>
      refine .inr ⟨_, _, Nat.pos_of_ne_zero hzero, rfl, ⟨by omega, by omega, ?_⟩, by omega, ?_⟩
      · rcases hnormal with h | h
        · exact .inl (by omega)
        · exact .inr (by omega)
      · rw [hem', hstay, Nat.cast_zero, add_zero]
  · have hr : em.roundedMantissa = 2 ^ 53 := by omega
    have hone : (lastPlace em.roundedMantissa (lastPlace m e) - lastPlace m e).toNat = 1 := by
      rw [hr, lastPlace_two_pow hleast]
      omega
    rw [hone, hr] at hem'
    have hhalf : em'.mantissa = 2 ^ 52 := hem'
    split
    · next hzero => omega
    · next hzero =>
      refine .inr ⟨_, _, Nat.pos_of_ne_zero hzero, rfl, ⟨by omega, by omega, .inl (by omega)⟩,
        by omega, ?_⟩
      rw [hhalf, hone, hr, zpow_add₀ (by norm_num)]
      norm_num
      ring

section

variable {v : ℚ}

section

variable (h0 : m * 2 ^ e ≤ v)

include h0

/-- A number that is not subnormal is at least `2 ^ 52` units of its last place. -/
theorem two_pow_mul_two_zpow_lastPlace_le (he : e ≤ lastPlace m e)
    (hnormal : 2 ^ 52 ≤ m / 2 ^ (lastPlace m e - e).toNat) :
    (2 : ℚ) ^ 52 * 2 ^ lastPlace m e ≤ v := by
  have hm : (2 : ℚ) ^ 52 * 2 ^ (lastPlace m e - e).toNat ≤ m := by
    exact_mod_cast Nat.mul_le_of_le_div _ _ _ hnormal
  rw [← mul_two_pow_mul_two_zpow he]
  exact (mul_le_mul_of_nonneg_right hm (by positivity)).trans h0

/-- The last place is small against the number. -/
theorem two_zpow_lastPlace_le (he : e ≤ lastPlace m e) :
    (2 : ℚ) ^ lastPlace m e ≤ max (v * 2 ^ (-52 : ℤ)) (2 ^ (-1074 : ℤ)) := by
  rcases (cutOff_mem he).2 with hnormal | hleast
  · refine le_max_of_le_left ?_
    have hv := two_pow_mul_two_zpow_lastPlace_le h0 he hnormal
    calc (2 : ℚ) ^ lastPlace m e = 2 ^ 52 * 2 ^ lastPlace m e * 2 ^ (-52 : ℤ) := by
          rw [mul_right_comm]
          norm_num
      _ ≤ v * 2 ^ (-52 : ℤ) := by gcongr
  · rw [hleast]
    exact le_max_right _ _

theorem lastPlace_lt (he : e ≤ lastPlace m e) (hv : v < 2 ^ (1023 : ℤ)) : lastPlace m e < 971 := by
  rcases (cutOff_mem he).2 with hnormal | hleast
  · have hlt := (two_pow_mul_two_zpow_lastPlace_le h0 he hnormal).trans_lt hv
    rw [← zpow_natCast, ← zpow_add₀ (by norm_num), zpow_lt_zpow_iff_right₀ (by norm_num)] at hlt
    push_cast at hlt
    omega
  · omega

end

section

variable {a : UnpackedFloat.Accuracy}
  (h : Tells (UnpackedFloat.ExtendedMantissa.ofMantissaAndAccuracy m a) (v / 2 ^ e))

include h

theorem Tells.le : m * 2 ^ e ≤ v := by
  have hle := h.mem.1
  rwa [mantissa_ofMantissaAndAccuracy, le_div_iff₀ (by positivity)] at hle

theorem Tells.lt : v < (m + 1) * 2 ^ e := by
  have hlt := h.mem.2
  rwa [mantissa_ofMantissaAndAccuracy, div_lt_iff₀ (by positivity)] at hlt

/-- What is cut off lies within one unit of the last place. -/
theorem Tells.cutOff (he : e ≤ lastPlace m e) :
    ((m / 2 ^ (lastPlace m e - e).toNat : ℕ) : ℚ) * 2 ^ lastPlace m e ≤ v ∧
      v < ((m / 2 ^ (lastPlace m e - e).toNat : ℕ) + 1 : ℚ) * 2 ^ lastPlace m e := by
  constructor
  · refine le_trans ?_ h.le
    rw [← mul_two_pow_mul_two_zpow he]
    gcongr
    exact_mod_cast Nat.div_mul_le_self m _
  · refine h.lt.trans_le ?_
    rw [← mul_two_pow_mul_two_zpow he]
    gcongr
    have h := Nat.lt_div_mul_add (a := m) (b := 2 ^ (lastPlace m e - e).toNat) (by positivity)
    have h' : m + 1 ≤ (m / 2 ^ (lastPlace m e - e).toNat + 1) * 2 ^ (lastPlace m e - e).toNat := by
      rw [add_mul, one_mul]
      exact h
    exact_mod_cast h'

theorem Tells.isLastPlace (he : e ≤ lastPlace m e) (hpos : 0 < v) :
    IsLastPlace v (lastPlace m e) := by
  obtain ⟨hlt, hnormal⟩ := cutOff_mem he
  rw [← abs_of_pos hpos] at h
  refine ⟨(h.cutOff he).2.trans_le ?_, le_max_right _ _,
    hnormal.imp_left fun hnormal => two_pow_mul_two_zpow_lastPlace_le h.le he hnormal⟩
  gcongr
  exact_mod_cast hlt

/-- A number that is told by a significand is rounded to a double. -/
theorem exists_rounds_roundWithAccuracy (s : UnpackedFloat.Sign) (he : e ≤ lastPlace m e)
    (hpos : 0 < v) (hv : v < 2 ^ (1023 : ℤ)) :
    ∃ r, exactValue? (.ofModel (pack (UnpackedFloat.roundWithAccuracy .binary64 s m e a))) =
      some r ∧ Rounds (signOf s * v) r := by
  obtain ⟨n, ⟨hlow, hhigh⟩, heven, hround⟩ := exists_roundWithAccuracy s he h
  -- both the number and what it is rounded to lie in one unit of the last place
  obtain ⟨hbelow, habove⟩ := h.cutOff he
  have hunit : (0 : ℚ) < 2 ^ lastPlace m e := by positivity
  have hnear : |n * 2 ^ lastPlace m e - v| ≤ 2 ^ lastPlace m e := by
    have hlow' : ((m / 2 ^ (lastPlace m e - e).toNat : ℕ) : ℚ) * 2 ^ lastPlace m e ≤
        n * 2 ^ lastPlace m e := by
      gcongr
    have hhigh' : (n : ℚ) * 2 ^ lastPlace m e ≤
        ((m / 2 ^ (lastPlace m e - e).toNat : ℕ) + 1 : ℚ) * 2 ^ lastPlace m e := by
      gcongr
      exact_mod_cast hhigh
    rw [abs_le]
    constructor <;> linarith
  have hnonneg : (0 : ℚ) ≤ n * 2 ^ lastPlace m e := mul_nonneg (Nat.cast_nonneg n) hunit.le
  have hscaled : v / 2 ^ e / 2 ^ (lastPlace m e - e).toNat = v / 2 ^ lastPlace m e := by
    have hpow := mul_two_pow_mul_two_zpow he 1
    rw [one_mul, one_mul, mul_comm] at hpow
    rw [div_div, hpow]
  have habs : |signOf s * v| = v := by
    rw [abs_mul, abs_signOf, one_mul, abs_of_pos hpos]
  have hrounds : Rounds (signOf s * v) (signOf s * (n * 2 ^ lastPlace m e)) := by
    refine ⟨?_, ?_, ?_, lastPlace m e, ?_, ?_⟩
    · rw [habs, ← mul_sub, abs_mul, abs_signOf, one_mul]
      exact hnear.trans (two_zpow_lastPlace_le h.le he)
    · intro h
      exact mul_nonneg (nonneg_of_mul_nonneg_left h hpos) hnonneg
    · intro h
      exact mul_nonpos_of_nonpos_of_nonneg (nonpos_of_mul_nonpos_left h hpos) hnonneg
    · obtain ⟨hlt, hle, hnormal⟩ := h.isLastPlace he hpos
      rw [abs_of_pos hpos] at hlt hnormal
      exact ⟨by rwa [habs], hle, by rwa [habs]⟩
    · rw [habs, abs_mul, abs_signOf, one_mul, abs_of_nonneg hnonneg, ← hscaled, ← heven,
        Int.cast_natCast]
  refine ⟨_, ?_, hrounds⟩
  rcases hround with ⟨rfl, hzero⟩ | ⟨m', e', h', hfinite, hdouble, hle, hvalue⟩
  · rw [hzero, exactValue?_pack_zero, Nat.cast_zero, zero_mul, mul_zero]
  · have := lastPlace_lt h.le he hv
    rw [hfinite, exactValue?_pack s h' hdouble (by omega), mul_assoc, hvalue]

end

end

end

end ColorMod.Double
