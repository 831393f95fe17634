import ColorMod.Proofs.Rounding

/-!
# Arithmetic of doubles

Each operation on finite doubles gives the double that the exact result is rounded to, as long as
that is not too large.  Comparisons of finite doubles are those of the numbers they stand for.

* `exists_add`, `exists_sub`, `exists_mul`, `exists_div`: the four operations.
* `exists_nearest`, `exists_ofDecimal`: the doubles of a rational number and of a decimal.
* `exactValue?_ofNat`: small integers are doubles.
-/

namespace ColorMod.Double

open Float.Model

section

variable {m : ℕ} {e : ℤ}

theorem log2_shiftLeft (hm : 0 < m) (k : ℕ) : (m <<< k).log2 = m.log2 + k := by
  have hlow := Nat.log2_self_le hm.ne'
  have hhigh := Nat.lt_log2_self (n := m)
  have hpow : 0 < 2 ^ k := by positivity
  rw [Nat.shiftLeft_eq, Nat.log2_eq_iff (Nat.mul_pos hm hpow).ne', pow_add, add_right_comm, pow_add]
  exact ⟨Nat.mul_le_mul_right _ hlow, Nat.mul_lt_mul_of_pos_right hhigh hpow⟩

/-- Lowering the exponent keeps the number. -/
theorem shiftLeft_mul_zpow (m k : ℕ) (e : ℤ) : ((m <<< k : ℕ) : ℚ) * 2 ^ (e - k) = m * 2 ^ e := by
  rw [Nat.shiftLeft_eq, Nat.cast_mul, Nat.cast_pow, Nat.cast_ofNat, mul_assoc, ← zpow_natCast,
    ← zpow_add₀ (by norm_num), add_sub_cancel]

theorem le_lastPlace (h : 2 ^ 52 ≤ m ∨ e ≤ -1074) : e ≤ lastPlace m e := by
  rw [lastPlace]
  rcases h with h | h
  · have hlog : 52 ≤ m.log2 := (Nat.le_log2 (by omega)).mpr h
    omega
  · omega

/-- A number with a significand that is long enough is rounded to a double. -/
theorem exists_rounds_exact (s : UnpackedFloat.Sign) (hm : 0 < m) (h : 2 ^ 52 ≤ m ∨ e ≤ -1074)
    (hsmall : (m : ℚ) * 2 ^ e < 2 ^ (1023 : ℤ)) :
    ∃ r, exactValue? (.ofModel (pack (UnpackedFloat.roundWithAccuracy .binary64 s m e .exact))) =
      some r ∧ Rounds (signOf s * (m * 2 ^ e)) r := by
  have htells := tells_exact m
  rw [← mul_div_cancel_right₀ (m : ℚ) (by positivity : (2 : ℚ) ^ e ≠ 0)] at htells
  exact exists_rounds_roundWithAccuracy htells s (le_lastPlace h) (by positivity) hsmall

/-- A number with a significand of any size is rounded to a double. -/
theorem exists_rounds_round (s : UnpackedFloat.Sign) (hm : 0 < m)
    (hsmall : (m : ℚ) * 2 ^ e < 2 ^ (1023 : ℤ)) :
    ∃ r, exactValue? (.ofModel (pack (UnpackedFloat.round .binary64 s m e))) = some r ∧
      Rounds (signOf s * (m * 2 ^ e)) r := by
  let k := (e - lastPlace m e).toNat
  have hplace : lastPlace (m <<< k) (e - k) = lastPlace m e := by
    rw [lastPlace, lastPlace, log2_shiftLeft hm, Nat.cast_add]
    congr 1
    ring
  have hpos : (0 : ℚ) < m * 2 ^ e := by positivity
  have htells := tells_exact (m <<< k)
  rw [← mul_div_cancel_right₀ ((m <<< k : ℕ) : ℚ) (by positivity : (2 : ℚ) ^ (e - k) ≠ 0),
    shiftLeft_mul_zpow] at htells
  rw [UnpackedFloat.round, targetExponent_eq]
  exact exists_rounds_roundWithAccuracy htells s (by rw [hplace]; omega) hpos hsmall

theorem exists_rounds_normalize (n e : ℤ) (zeroSign : UnpackedFloat.Sign)
    (hsmall : |(n : ℚ) * 2 ^ e| < 2 ^ (1023 : ℤ)) :
    ∃ r, exactValue? (.ofModel (pack (UnpackedFloat.normalize .binary64 n e zeroSign))) = some r ∧
      Rounds (n * 2 ^ e) r := by
  rw [UnpackedFloat.normalize]
  rcases lt_trichotomy n 0 with h | rfl | h
  · obtain ⟨k, rfl⟩ := Int.exists_eq_neg_ofNat h.le
    rw [Int.compare_eq_lt.mpr h]
    dsimp only
    rw [neg_neg, Int.toNat_natCast]
    have hvalue : ((-(k : ℤ) : ℤ) : ℚ) * 2 ^ e = signOf .negative * (k * 2 ^ e) := by
      rw [signOf_negative]
      push_cast
      ring
    rw [hvalue]
    refine exists_rounds_round .negative (by omega) (lt_of_le_of_lt ?_ hsmall)
    rw [hvalue, abs_mul, abs_signOf, one_mul]
    exact le_abs_self _
  · refine ⟨0, exactValue?_pack_zero _, ?_⟩
    rw [Int.cast_zero, zero_mul]
    exact .zero
  · obtain ⟨k, rfl⟩ := Int.eq_ofNat_of_zero_le h.le
    rw [Int.compare_eq_gt.mpr h]
    dsimp only
    rw [Int.toNat_natCast]
    have hvalue : (((k : ℕ) : ℤ) : ℚ) * 2 ^ e = signOf .positive * (k * 2 ^ e) := by
      rw [signOf_positive, one_mul, Int.cast_natCast]
    rw [hvalue]
    refine exists_rounds_round .positive (by omega) (lt_of_le_of_lt ?_ hsmall)
    rw [hvalue, abs_mul, abs_signOf, one_mul]
    exact le_abs_self _

end

/-! ## Signs -/

theorem signOf_neg (s : UnpackedFloat.Sign) : signOf (-s) = -signOf s := by
  cases s
  · exact signOf_positive.trans (by rw [signOf_negative, neg_neg])
  · exact signOf_negative.trans (by rw [signOf_positive])

theorem signOf_mul (s₁ s₂ : UnpackedFloat.Sign) : signOf (s₁ * s₂) = signOf s₁ * signOf s₂ := by
  cases s₁ <;> cases s₂ <;> decide +kernel

theorem signOf_div (s₁ s₂ : UnpackedFloat.Sign) : signOf (s₁ / s₂) = signOf s₁ / signOf s₂ := by
  cases s₁ <;> cases s₂ <;> decide +kernel

/-! ## Quotients -/

section

variable {m₁ m₂ : ℕ} (e₁ e₂ : ℤ)

/-- The quotient by a significand has its bits in full when the other one is shifted far enough. -/
theorem two_pow_le_shiftLeft_div (h₁ : 0 < m₁) (h₂ : 0 < m₂) {k : ℕ}
    (hk : m₂.log2 + 53 ≤ m₁.log2 + k) : 2 ^ 52 ≤ (m₁ <<< k) / m₂ := by
  have hlog : m₂.log2 + 1 + 52 ≤ (m₁ <<< k).log2 := by
    rw [log2_shiftLeft h₁]
    exact hk
  have hne : m₁ <<< k ≠ 0 := by
    rw [Nat.shiftLeft_eq]
    positivity
  rw [Nat.le_div_iff_mul_le h₂]
  calc 2 ^ 52 * m₂ ≤ 2 ^ 52 * 2 ^ (m₂.log2 + 1) := by
        gcongr
        exact (Nat.lt_log2_self (n := m₂)).le
    _ = 2 ^ (m₂.log2 + 1 + 52) := by rw [mul_comm, ← pow_add]
    _ ≤ 2 ^ (m₁ <<< k).log2 := Nat.pow_le_pow_right (by decide) hlog
    _ ≤ m₁ <<< k := Nat.log2_self_le hne

/-- The quotient of significands, when the first one is made long enough. -/
theorem exists_divCore (h₁ : 0 < m₁) (h₂ : 0 < m₂) : ∃ n e a,
    UnpackedFloat.divCore .binary64 m₁ e₁ m₂ e₂ = (n, e, a) ∧ e ≤ lastPlace n e ∧
      Tells (UnpackedFloat.ExtendedMantissa.ofMantissaAndAccuracy n a)
        (m₁ * 2 ^ e₁ / (m₂ * 2 ^ e₂) / 2 ^ e) := by
  let t := min (e₁ - e₂)
    (Format.binary64.targetExponent (totalExponent m₁ e₁ - totalExponent m₂ e₂))
  let k := (e₁ - e₂ - t).toNat
  have hk : (k : ℤ) = e₁ - e₂ - t := by
    have : t ≤ e₁ - e₂ := min_le_left _ _
    omega
  have hvalue : (m₁ * 2 ^ e₁ / (m₂ * 2 ^ e₂) / 2 ^ t : ℚ) =
      (((m₁ <<< k) / m₂ : ℕ) : ℚ) + ((m₁ <<< k) % m₂ : ℕ) / m₂ := by
    have hexponent : e₁ - k = e₂ + t := by omega
    have hdivisor : (m₂ : ℚ) ≠ 0 := by exact_mod_cast h₂.ne'
    have hquotient : ((m₁ <<< k : ℕ) : ℚ) =
        m₂ * (((m₁ <<< k) / m₂ : ℕ) : ℚ) + ((m₁ <<< k) % m₂ : ℕ) := by
      exact_mod_cast (Nat.div_add_mod (m₁ <<< k) m₂).symm
    rw [← shiftLeft_mul_zpow m₁ k e₁, hexponent, zpow_add₀ (by norm_num), hquotient]
    field_simp
  refine ⟨(m₁ <<< k) / m₂, t, _, rfl, le_lastPlace ?_, ?_⟩
  · by_cases ht : t ≤ -1074
    · exact .inr ht
    · refine .inl ?_
      have hmin : Format.minExponent .binary64 = -1074 := by decide
      have hbits : (Format.mantissaBits .binary64 : ℤ) = 53 := rfl
      have htarget : t ≤ max (m₁.log2 + 1 + e₁ - (m₂.log2 + 1 + e₂) - 53) (-1074) := by
        rw [← hmin, ← hbits]
        exact min_le_right _ _
      exact two_pow_le_shiftLeft_div h₁ h₂ (by omega)
  · rw [hvalue]
    exact tells_accuracyOfFraction _ (Nat.mod_lt _ h₂)

/-- The quotient of numbers with significands of any size is rounded to a double. -/
theorem exists_rounds_div (s₁ s₂ : UnpackedFloat.Sign) (h₁ : 0 < m₁) (h₂ : 0 < m₂)
    (hsmall : (m₁ * 2 ^ e₁ / (m₂ * 2 ^ e₂) : ℚ) < 2 ^ (1023 : ℤ)) :
    ∃ r, exactValue? (.ofModel (pack (UnpackedFloat.div .binary64 (.finite s₁ m₁ e₁ h₁)
      (.finite s₂ m₂ e₂ h₂)))) = some r ∧
      Rounds (signOf s₁ * m₁ * 2 ^ e₁ / (signOf s₂ * m₂ * 2 ^ e₂)) r := by
  obtain ⟨n, e, a, hcore, he, htells⟩ := exists_divCore e₁ e₂ h₁ h₂
  have hvalue : signOf s₁ * m₁ * 2 ^ e₁ / (signOf s₂ * m₂ * 2 ^ e₂) =
      signOf (s₁ / s₂) * (m₁ * 2 ^ e₁ / (m₂ * 2 ^ e₂)) := by
    rw [signOf_div, mul_assoc, mul_assoc, mul_div_mul_comm]
  rw [UnpackedFloat.div, hcore, hvalue]
  exact exists_rounds_roundWithAccuracy htells _ he (by positivity) hsmall

end

/-! ## The operations -/

section

variable (s₁ s₂ : UnpackedFloat.Sign) (m₁ m₂ : ℕ) (e₁ e₂ : ℤ)

/-- A number with the lesser of two exponents. -/
theorem decreaseExponent_mul_zpow {m : ℕ} {e least : ℤ} (h : least ≤ e) :
    ((UnpackedFloat.decreaseExponent m e least).1 : ℚ) * 2 ^ least = m * 2 ^ e := by
  have hvalue := shiftLeft_mul_zpow m (e - least).toNat e
  have hleast : e - ((e - least).toNat : ℤ) = least := by omega
  rwa [hleast] at hvalue

theorem signed_add_mul_zpow :
    ((s₁.apply (UnpackedFloat.decreaseExponent m₁ e₁ (min e₁ e₂)).1 +
      s₂.apply (UnpackedFloat.decreaseExponent m₂ e₂ (min e₁ e₂)).1 : ℤ) : ℚ) * 2 ^ min e₁ e₂ =
      signOf s₁ * m₁ * 2 ^ e₁ + signOf s₂ * m₂ * 2 ^ e₂ := by
  rw [Int.cast_add, apply_eq, apply_eq, add_mul, Int.cast_natCast, Int.cast_natCast, mul_assoc,
    mul_assoc, decreaseExponent_mul_zpow (min_le_left _ _),
    decreaseExponent_mul_zpow (min_le_right _ _), mul_assoc, mul_assoc]

theorem signed_sub_mul_zpow :
    ((s₁.apply (UnpackedFloat.decreaseExponent m₁ e₁ (min e₁ e₂)).1 -
      s₂.apply (UnpackedFloat.decreaseExponent m₂ e₂ (min e₁ e₂)).1 : ℤ) : ℚ) * 2 ^ min e₁ e₂ =
      signOf s₁ * m₁ * 2 ^ e₁ - signOf s₂ * m₂ * 2 ^ e₂ := by
  rw [Int.cast_sub, apply_eq, apply_eq, sub_mul, Int.cast_natCast, Int.cast_natCast, mul_assoc,
    mul_assoc, decreaseExponent_mul_zpow (min_le_left _ _),
    decreaseExponent_mul_zpow (min_le_right _ _), mul_assoc, mul_assoc]

end

section

variable {x y : Float} {p q : ℚ} (hx : exactValue? x = some p) (hy : exactValue? y = some q)

include hx hy

theorem exists_add (h : |p + q| < 2 ^ (1023 : ℤ)) :
    ∃ r, exactValue? (x + y) = some r ∧ Rounds (p + q) r := by
  change ∃ r, exactValue? (.ofModel (pack (UnpackedFloat.add .binary64 x.toModel.unpack
    y.toModel.unpack))) = some r ∧ _
  obtain ⟨rfl, s₁, hux⟩ | ⟨s₁, m₁, e₁, h₁, hux, hd₁, hle₁, rfl⟩ :=
    exists_unpack_of_exactValue? hx <;>
  obtain ⟨rfl, s₂, huy⟩ | ⟨s₂, m₂, e₂, h₂, huy, hd₂, hle₂, rfl⟩ :=
    exists_unpack_of_exactValue? hy <;>
  rw [hux, huy]
  · refine ⟨0, ?_, by rw [add_zero]; exact .zero⟩
    cases s₁ <;> cases s₂ <;> exact exactValue?_pack_zero _
  · exact ⟨_, exactValue?_pack s₂ h₂ hd₂ hle₂, by rw [zero_add]; exact .of_isDouble s₂ hd₂⟩
  · exact ⟨_, exactValue?_pack s₁ h₁ hd₁ hle₁, by rw [add_zero]; exact .of_isDouble s₁ hd₁⟩
  · have hvalue := signed_add_mul_zpow s₁ s₂ m₁ m₂ e₁ e₂
    rw [← hvalue] at h ⊢
    exact exists_rounds_normalize _ _ _ h

theorem exists_sub (h : |p - q| < 2 ^ (1023 : ℤ)) :
    ∃ r, exactValue? (x - y) = some r ∧ Rounds (p - q) r := by
  change ∃ r, exactValue? (.ofModel (pack (UnpackedFloat.sub .binary64 x.toModel.unpack
    y.toModel.unpack))) = some r ∧ _
  obtain ⟨rfl, s₁, hux⟩ | ⟨s₁, m₁, e₁, h₁, hux, hd₁, hle₁, rfl⟩ :=
    exists_unpack_of_exactValue? hx <;>
  obtain ⟨rfl, s₂, huy⟩ | ⟨s₂, m₂, e₂, h₂, huy, hd₂, hle₂, rfl⟩ :=
    exists_unpack_of_exactValue? hy <;>
  rw [hux, huy]
  · refine ⟨0, ?_, by rw [sub_zero]; exact .zero⟩
    cases s₁ <;> cases s₂ <;> exact exactValue?_pack_zero _
  · refine ⟨_, exactValue?_pack (-s₂) h₂ hd₂ hle₂, ?_⟩
    rw [zero_sub, ← neg_mul, ← neg_mul, ← signOf_neg]
    exact .of_isDouble (-s₂) hd₂
  · exact ⟨_, exactValue?_pack s₁ h₁ hd₁ hle₁, by rw [sub_zero]; exact .of_isDouble s₁ hd₁⟩
  · have hvalue := signed_sub_mul_zpow s₁ s₂ m₁ m₂ e₁ e₂
    rw [← hvalue] at h ⊢
    exact exists_rounds_normalize _ _ _ h

theorem exists_mul (h : |p * q| < 2 ^ (1023 : ℤ)) :
    ∃ r, exactValue? (x * y) = some r ∧ Rounds (p * q) r := by
  change ∃ r, exactValue? (.ofModel (pack (UnpackedFloat.mul .binary64 x.toModel.unpack
    y.toModel.unpack))) = some r ∧ _
  obtain ⟨rfl, s₁, hux⟩ | ⟨s₁, m₁, e₁, h₁, hux, hd₁, hle₁, rfl⟩ :=
    exists_unpack_of_exactValue? hx <;>
  obtain ⟨rfl, s₂, huy⟩ | ⟨s₂, m₂, e₂, h₂, huy, hd₂, hle₂, rfl⟩ :=
    exists_unpack_of_exactValue? hy <;>
  rw [hux, huy]
  · exact ⟨0, exactValue?_pack_zero _, by rw [mul_zero]; exact .zero⟩
  · exact ⟨0, exactValue?_pack_zero _, by rw [zero_mul]; exact .zero⟩
  · exact ⟨0, exactValue?_pack_zero _, by rw [mul_zero]; exact .zero⟩
  · have hvalue : signOf s₁ * m₁ * 2 ^ e₁ * (signOf s₂ * m₂ * 2 ^ e₂) =
        signOf (s₁ * s₂) * ((m₁ * m₂ : ℕ) * 2 ^ (e₁ + e₂)) := by
      rw [signOf_mul, zpow_add₀ (by norm_num), Nat.cast_mul]
      ring
    have hplace : 2 ^ 52 ≤ m₁ * m₂ ∨ e₁ + e₂ ≤ -1074 := by
      have hle₁ := hd₁.le
      rcases hd₁.normal with h | h
      · exact .inl (h.trans (Nat.le_mul_of_pos_right m₁ h₂))
      · rcases hd₂.normal with h' | h'
        · exact .inl (h'.trans (Nat.le_mul_of_pos_left m₂ h₁))
        · exact .inr (by omega)
    rw [hvalue] at h ⊢
    rw [abs_mul, abs_signOf, one_mul] at h
    exact exists_rounds_exact _ (Nat.mul_pos h₁ h₂) hplace (lt_of_le_of_lt (le_abs_self _) h)

theorem exists_div (hq : q ≠ 0) (h : |p / q| < 2 ^ (1023 : ℤ)) :
    ∃ r, exactValue? (x / y) = some r ∧ Rounds (p / q) r := by
  change ∃ r, exactValue? (.ofModel (pack (UnpackedFloat.div .binary64 x.toModel.unpack
    y.toModel.unpack))) = some r ∧ _
  obtain ⟨rfl, s₂, huy⟩ | ⟨s₂, m₂, e₂, h₂, huy, hd₂, hle₂, rfl⟩ := exists_unpack_of_exactValue? hy
  · exact absurd rfl hq
  · obtain ⟨rfl, s₁, hux⟩ | ⟨s₁, m₁, e₁, h₁, hux, hd₁, hle₁, rfl⟩ :=
      exists_unpack_of_exactValue? hx <;>
    rw [hux, huy]
    · exact ⟨0, exactValue?_pack_zero _, by rw [zero_div]; exact .zero⟩
    · refine exists_rounds_div e₁ e₂ s₁ s₂ h₁ h₂ (lt_of_le_of_lt (le_of_eq ?_) h)
      rw [mul_assoc, mul_assoc, abs_div, abs_mul (signOf s₁), abs_mul (signOf s₂), abs_signOf,
        abs_signOf, one_mul, one_mul, abs_of_pos (by positivity), abs_of_pos (by positivity)]

end

/-! ## Rational numbers and decimals -/

theorem exists_nearest {q : ℚ} (h : |q| < 2 ^ (1023 : ℤ)) :
    ∃ r, exactValue? (nearest q) = some r ∧ Rounds q r := by
  rw [nearest]
  split
  · next hnum =>
    let s : UnpackedFloat.Sign := if q.num < 0 then .negative else .positive
    have hsign : signOf s * q.num.natAbs = q.num := by
      have habs : ((q.num.natAbs : ℕ) : ℚ) = |(q.num : ℚ)| := by
        rw [Nat.cast_natAbs, Int.cast_abs]
      rw [habs]
      by_cases hneg : q.num < 0
      · rw [show s = .negative from if_pos hneg, signOf_negative,
          abs_of_neg (Int.cast_lt_zero.mpr hneg)]
        ring
      · rw [show s = .positive from if_neg hneg, signOf_positive,
          abs_of_nonneg (Int.cast_nonneg (not_lt.mp hneg)), one_mul]
    have hvalue : signOf s * q.num.natAbs * 2 ^ (0 : ℤ) / (signOf .positive * q.den * 2 ^ (0 : ℤ)) =
        q := by
      rw [hsign, signOf_positive, zpow_zero, mul_one, mul_one, one_mul, Rat.num_div_den]
    have hsize : (q.num.natAbs * 2 ^ (0 : ℤ) / (q.den * 2 ^ (0 : ℤ)) : ℚ) = |q| := by
      rw [zpow_zero, mul_one, mul_one, Nat.cast_natAbs, Int.cast_abs]
      conv_rhs => rw [← Rat.num_div_den q, abs_div, Nat.abs_cast]
    have hrounds := exists_rounds_div 0 0 s .positive hnum q.den_pos
      (by rw [hsize]; exact h)
    rwa [hvalue] at hrounds
  · next hnum =>
    have hzero : q = 0 := by
      rw [← Rat.num_eq_zero]
      omega
    exact ⟨0, exactValue?_pack_zero _, by rw [hzero]; exact .zero⟩

theorem exists_ofDecimal (coefficient : ℕ) {places : ℕ} (hplaces : places ≤ 2048)
    (h : (coefficient : ℚ) * 10 ^ (-places : ℤ) < 2 ^ (1023 : ℤ)) :
    ∃ r, exactValue? (Scalar.ofDecimal coefficient (-places)) = some r ∧
      Rounds (coefficient * 10 ^ (-places : ℤ)) r := by
  change ∃ r, exactValue? (.ofModel (pack (UnpackedFloat.ofScientific .binary64 coefficient
    (-places)))) = some r ∧ _
  have hbits : Format.mantissaBits .binary64 = 53 := rfl
  rw [UnpackedFloat.ofScientific]
  split
  · next hzero =>
    rw [hzero, Nat.cast_zero, zero_mul]
    exact ⟨0, exactValue?_pack_zero _, .zero⟩
  · next hne =>
    have hpos : 0 < coefficient := Nat.pos_of_ne_zero hne
    rw [if_neg (by dsimp only; omega), if_neg (by dsimp only; omega)]
    split
    · next hnonneg =>
      obtain rfl : places = 0 := by omega
      have hvalue : (((coefficient <<< 53) * 10 ^ 0 : ℕ) : ℚ) * 2 ^ (-53 + 0 : ℤ) =
          coefficient * 10 ^ (-(0 : ℕ) : ℤ) := by
        have hshift := shiftLeft_mul_zpow coefficient 53 0
        rw [pow_zero, mul_one, Nat.cast_zero, neg_zero, zpow_zero]
        rw [zpow_zero] at hshift
        exact hshift
      have hlong : 2 ^ 52 ≤ (coefficient <<< 53) * 10 ^ 0 := by
        rw [pow_zero, mul_one, Nat.shiftLeft_eq]
        omega
      have hrounds := exists_rounds_exact (e := -53 + 0) (.positive * .positive)
        (by omega) (.inl hlong) (by rw [hvalue]; exact h)
      rw [hvalue, signOf_mul, signOf_positive, one_mul, one_mul] at hrounds
      exact hrounds
    · next hneg =>
      have hvalue : (coefficient * 2 ^ (0 : ℤ) / ((10 ^ (-(-(places : ℤ))).toNat : ℕ) *
          2 ^ (0 : ℤ)) : ℚ) = coefficient * 10 ^ (-places : ℤ) := by
        rw [neg_neg, Int.toNat_natCast, zpow_zero, mul_one, mul_one, zpow_neg, zpow_natCast,
          div_eq_mul_inv, Nat.cast_pow, Nat.cast_ofNat]
      have hrounds := exists_rounds_div 0 0 .positive .positive hpos
        (Nat.pow_pos (n := (-(-(places : ℤ))).toNat) (by decide : 0 < 10))
        (by rw [hvalue]; exact h)
      rw [signOf_positive, one_mul, one_mul, hvalue] at hrounds
      exact hrounds

/-! ## Integers -/

/-- An integer that is not large is a double. -/
theorem Rounds.eq_of_natCast {n : ℕ} {r : ℚ} (h : Rounds n r) (hn : n < 2 ^ 53) : r = n := by
  obtain ⟨k, hplace, heven⟩ := h.even
  have hr := h.nonneg n.cast_nonneg
  rw [Nat.abs_cast, abs_of_nonneg hr] at heven
  have hk : k ≤ 0 := by
    by_contra hk
    have hnormal := hplace.normal.resolve_right (by omega)
    rw [Nat.abs_cast] at hnormal
    have hlt : (n : ℚ) < 2 ^ 53 * 2 ^ (0 : ℤ) := by
      rw [zpow_zero, mul_one]
      exact_mod_cast hn
    exact absurd (hlt.trans_le (two_pow_mul_two_zpow_le (not_le.mp hk))) (not_lt.mpr hnormal)
  obtain ⟨j, rfl⟩ := Int.eq_ofNat_of_zero_le (neg_nonneg.mpr hk) |>.imp fun j hj =>
    (neg_eq_iff_eq_neg.mp hj)
  have hinteger : (n : ℚ) / 2 ^ (-(j : ℤ)) = ((n * 2 ^ j : ℕ) : ℤ) := by
    rw [zpow_neg, zpow_natCast, div_inv_eq_mul]
    push_cast
    ring
  rw [heven, hinteger, Decimal.roundEven_eq_of_abs_sub_lt (by rw [sub_self, abs_zero]; norm_num),
    ← hinteger, div_mul_cancel₀ _ (by positivity)]

/-- Small integers are written as doubles without an error. -/
theorem exactValue?_ofNat {n : ℕ} (hn : n < 2 ^ 53) :
    exactValue? (OfNat.ofNat n : Float) = some (n : ℚ) := by
  have hlt : (n : ℚ) < 2 ^ (1023 : ℤ) := by
    have hcast : (n : ℚ) < 2 ^ (53 : ℤ) := by exact_mod_cast hn
    exact hcast.trans (zpow_lt_zpow_right₀ one_lt_two (by norm_num))
  have hword : n.toUInt64.toNat = n := Nat.mod_eq_of_lt (hn.trans (by decide))
  obtain ⟨q, hq, hrounds⟩ := exists_rounds_normalize n.toUInt64.toNat 0 .positive
    (by simpa [hword] using hlt)
  rw [zpow_zero, mul_one, Int.cast_natCast, hword] at hrounds
  change exactValue? n.toUInt64.toFloat = some q at hq
  rw [hrounds.eq_of_natCast hn] at hq
  have hpower : exactValue? Float.exactlyRepresentablePowersOfTen[0] = some 1 := by decide +kernel
  obtain ⟨r, hr, hproduct⟩ := exists_mul hq hpower (by simpa using hlt)
  rw [mul_one] at hproduct
  have hliteral : (OfNat.ofNat n : Float) =
      n.toUInt64.toFloat * Float.exactlyRepresentablePowersOfTen[0] :=
    dif_pos ⟨hn, by decide⟩
  rw [hliteral, hr, hproduct.eq_of_natCast hn]

/-! ## Comparisons -/

theorem IsDouble.lt_of_exponent_lt {m₁ m₂ : ℕ} {e₁ e₂ : ℤ} (h₁ : IsDouble m₁ e₁)
    (h₂ : IsDouble m₂ e₂) (h : e₁ < e₂) : (m₁ : ℚ) * 2 ^ e₁ < m₂ * 2 ^ e₂ := by
  have hle := h₁.le
  have hm₁ : (m₁ : ℚ) < 2 ^ (53 : ℤ) := by exact_mod_cast h₁.lt
  have hm₂ : (2 : ℚ) ^ (52 : ℤ) ≤ m₂ := by
    exact_mod_cast h₂.normal.resolve_right (by omega)
  calc (m₁ : ℚ) * 2 ^ e₁ < 2 ^ (53 : ℤ) * 2 ^ e₁ := by gcongr
    _ = 2 ^ (53 + e₁) := (zpow_add₀ (by norm_num) _ _).symm
    _ ≤ 2 ^ (52 + e₂) := zpow_le_zpow_right₀ (by norm_num) (by omega)
    _ = 2 ^ (52 : ℤ) * 2 ^ e₂ := zpow_add₀ (by norm_num) _ _
    _ ≤ m₂ * 2 ^ e₂ := by gcongr

/-- The exponent counts first, and then the significand. -/
theorem IsDouble.compare_eq {m₁ m₂ : ℕ} {e₁ e₂ : ℤ} (h₁ : IsDouble m₁ e₁) (h₂ : IsDouble m₂ e₂) :
    (compare e₁ e₂).then (compare m₁ m₂) = compare ((m₁ : ℚ) * 2 ^ e₁) (m₂ * 2 ^ e₂) := by
  rcases lt_trichotomy e₁ e₂ with h | rfl | h
  · rw [compare_lt_iff_lt.mpr h, compare_lt_iff_lt.mpr (h₁.lt_of_exponent_lt h₂ h)]
    rfl
  · have hunit : (0 : ℚ) < 2 ^ e₁ := by positivity
    rw [compare_eq_iff_eq.mpr rfl]
    change compare m₁ m₂ = _
    rcases lt_trichotomy m₁ m₂ with h | rfl | h
    · rw [compare_lt_iff_lt.mpr h, compare_lt_iff_lt.mpr]
      gcongr
    · rw [compare_eq_iff_eq.mpr rfl, compare_eq_iff_eq.mpr rfl]
    · rw [compare_gt_iff_gt.mpr h, compare_gt_iff_gt.mpr]
      gcongr
  · rw [compare_gt_iff_gt.mpr h, compare_gt_iff_gt.mpr (h₂.lt_of_exponent_lt h₁ h)]
    rfl

theorem compare_neg_neg (p q : ℚ) : compare (-p) (-q) = (compare p q).swap := by
  rcases lt_trichotomy p q with h | rfl | h
  · rw [compare_lt_iff_lt.mpr h, compare_gt_iff_gt.mpr (neg_lt_neg h)]
    rfl
  · rw [compare_eq_iff_eq.mpr rfl, compare_eq_iff_eq.mpr rfl]
    rfl
  · rw [compare_gt_iff_gt.mpr h, compare_lt_iff_lt.mpr (neg_lt_neg h)]
    rfl

/-- Doubles compare as the numbers that they stand for. -/
theorem compare_unpack {x y : Float} {p q : ℚ} (hx : exactValue? x = some p)
    (hy : exactValue? y = some q) :
    UnpackedFloat.compare x.toModel.unpack y.toModel.unpack = some (compare p q) := by
  obtain ⟨rfl, s₁, hux⟩ | ⟨s₁, m₁, e₁, h₁, hux, hd₁, hle₁, rfl⟩ :=
    exists_unpack_of_exactValue? hx <;>
  obtain ⟨rfl, s₂, huy⟩ | ⟨s₂, m₂, e₂, h₂, huy, hd₂, hle₂, rfl⟩ :=
    exists_unpack_of_exactValue? hy <;>
  rw [hux, huy]
  · rw [compare_eq_iff_eq.mpr rfl]
    rfl
  · have hpos : (0 : ℚ) < m₂ * 2 ^ e₂ := by positivity
    rw [mul_assoc]
    cases s₂
    · rw [signOf_negative, compare_gt_iff_gt.mpr (by linarith)]
      rfl
    · rw [signOf_positive, compare_lt_iff_lt.mpr (by linarith)]
      rfl
  · have hpos : (0 : ℚ) < m₁ * 2 ^ e₁ := by positivity
    rw [mul_assoc]
    cases s₁
    · rw [signOf_negative, compare_lt_iff_lt.mpr (by linarith)]
      rfl
    · rw [signOf_positive, compare_gt_iff_gt.mpr (by linarith)]
      rfl
  · have hpos₁ : (0 : ℚ) < m₁ * 2 ^ e₁ := by positivity
    have hpos₂ : (0 : ℚ) < m₂ * 2 ^ e₂ := by positivity
    have hsize := hd₁.compare_eq hd₂
    rw [mul_assoc, mul_assoc]
    cases s₁ <;> cases s₂ <;> simp only [signOf_negative, signOf_positive, one_mul, neg_mul]
    · change some ((compare e₁ e₂).then (compare m₁ m₂)).swap = _
      rw [hsize, compare_neg_neg]
    · rw [compare_lt_iff_lt.mpr (by linarith)]
      rfl
    · rw [compare_gt_iff_gt.mpr (by linarith)]
      rfl
    · exact congrArg some hsize

theorem lt_iff_compare (x y : Float) :
    x < y ↔ UnpackedFloat.compare x.toModel.unpack y.toModel.unpack = some .lt := by
  change decide (x.toModel < y.toModel) = true ↔ _
  rw [decide_eq_true_eq]
  change (UnpackedFloat.compare x.toModel.unpack y.toModel.unpack == some .lt) = true ↔ _
  rw [beq_iff_eq]

section

variable {x y : Float} {p q : ℚ} (hx : exactValue? x = some p) (hy : exactValue? y = some q)

include hx hy

theorem lt_iff : x < y ↔ p < q := by
  rw [lt_iff_compare, compare_unpack hx hy, Option.some_inj, compare_lt_iff_lt]

theorem le_iff : x ≤ y ↔ p ≤ q := by
  change decide (x.toModel ≤ y.toModel) = true ↔ _
  rw [decide_eq_true_eq]
  change (UnpackedFloat.compare x.toModel.unpack y.toModel.unpack).any (·.isLE) = true ↔ _
  rw [compare_unpack hx hy, Option.any_some, Ordering.isLE_iff_ne_gt, compare_gt_iff_gt, not_lt]

theorem beq_iff : x == y ↔ p = q := by
  change (UnpackedFloat.compare x.toModel.unpack y.toModel.unpack == some .eq) = true ↔ _
  rw [compare_unpack hx hy, beq_iff_eq, Option.some_inj, compare_eq_iff_eq]

end

end ColorMod.Double
