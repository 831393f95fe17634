import ColorMod.Proofs.DoubleChannels

/-!
# Rounding keeps order

Of two numbers the larger one is not rounded to less (`Rounds.mono`), so a result that a double
bounds is rounded to no more than that double.  Comparisons of results in doubles come from here, as
do the bounds on the channels that a computation leads to (`Double.UpTo`).

* `Rounds.mono`, `Rounds.le_of_le`, `Rounds.eq_self`: rounding and order.
* `Below.add`, `Below.mul`, `Below.div`: the result of larger numbers bounds the result.
* `exactValue?_between_zero`, `exactValue?_between_one`: the ends of the way between two numbers.
* `below_or_below_of_neighbours`: no double lies between neighbours.
-/

namespace ColorMod

open Scalar

theorem Decimal.roundEven_mono {p q : ℚ} (h : p ≤ q) : roundEven p ≤ roundEven q := by
  have hp := abs_le.mp (abs_roundEven_sub_le p)
  have hq := abs_le.mp (abs_roundEven_sub_le q)
  by_contra hlt
  have hstep : (roundEven q : ℚ) + 1 ≤ roundEven p := by exact_mod_cast Int.not_le.mp hlt
  -- neighbours of one number in the middle can only be those of the same number
  have heq : p = q := by linarith
  rw [heq] at hstep
  linarith

namespace Double

/-! ## Rounding -/

section

variable {v w r s : ℚ}

theorem Rounds.mono (hv : Rounds v r) (hw : Rounds w s) (h0 : 0 ≤ v) (h : v ≤ w) : r ≤ s := by
  obtain ⟨j, hj, hr⟩ := hv.even
  obtain ⟨k, hk, hs⟩ := hw.even
  have hjpos : (0 : ℚ) < 2 ^ j := by positivity
  have hkpos : (0 : ℚ) < 2 ^ k := by positivity
  have hjlt := hj.lt
  have hklt := hk.lt
  rw [abs_of_nonneg h0] at hr hjlt
  rw [abs_of_nonneg (h0.trans h)] at hs hklt
  rw [abs_of_nonneg (hv.nonneg h0)] at hr
  rw [abs_of_nonneg (hw.nonneg (h0.trans h))] at hs
  rcases lt_trichotomy j k with hlt | rfl | hlt
  · -- the number with the smaller last place is below a power of two, and the other one is not
    have hnormal := hk.normal.resolve_right (by have := hj.le; omega)
    rw [abs_of_nonneg (h0.trans h), ← le_div_iff₀ hkpos] at hnormal
    have hbelow : Decimal.roundEven (v / 2 ^ j) ≤ 2 ^ 53 :=
      Decimal.roundEven_le (by push_cast; exact ((div_lt_iff₀ hjpos).mpr hjlt).le)
    have habove : 2 ^ 52 ≤ Decimal.roundEven (w / 2 ^ k) :=
      Decimal.le_roundEven (by exact_mod_cast hnormal)
    calc r = Decimal.roundEven (v / 2 ^ j) * 2 ^ j := hr
      _ ≤ 2 ^ 53 * 2 ^ j := by gcongr; exact_mod_cast hbelow
      _ ≤ 2 ^ 52 * 2 ^ k := two_pow_mul_two_zpow_le hlt
      _ ≤ Decimal.roundEven (w / 2 ^ k) * 2 ^ k := by gcongr; exact_mod_cast habove
      _ = s := hs.symm
  · rw [hr, hs]
    gcongr
    exact Decimal.roundEven_mono (by gcongr)
  · have hnormal := hj.normal.resolve_right (by have := hk.le; omega)
    rw [abs_of_nonneg h0] at hnormal
    exact absurd (hnormal.trans h) (not_le.mpr (hklt.trans_le (two_pow_mul_two_zpow_le hlt)))

variable {x : Float} {p : ℚ}

theorem rounds_self (hx : exactValue? x = some p) : Rounds p p := by
  obtain ⟨rfl, -⟩ | ⟨s, m, e, -, -, hdouble, -, rfl⟩ := exists_unpack_of_exactValue? hx
  · exact .zero
  · exact .of_isDouble s hdouble

/-- What a double bounds is rounded to no more than that double. -/
theorem Rounds.le_of_le (h : Rounds v r) (hx : exactValue? x = some p) (h0 : 0 ≤ v) (hv : v ≤ p) :
    r ≤ p :=
  h.mono (rounds_self hx) h0 hv

theorem Rounds.ge_of_ge (h : Rounds v r) (hx : exactValue? x = some p) (h0 : 0 ≤ p) (hv : p ≤ v) :
    p ≤ r :=
  (rounds_self hx).mono h h0 hv

/-- A double is rounded to itself only. -/
theorem Rounds.eq_self (h : Rounds p r) (hx : exactValue? x = some p) (h0 : 0 ≤ p) : r = p :=
  le_antisymm (h.le_of_le hx h0 le_rfl) (h.ge_of_ge hx h0 le_rfl)

/-- Doubles that are large enough are multiples of a power of two. -/
theorem exists_multiple_of_le_value {k : ℤ} (hx : exactValue? x = some p)
    (hp : 2 ^ 53 * 2 ^ (k - 1) ≤ p) : ∃ n : ℤ, p = n * 2 ^ k := by
  obtain ⟨rfl, -⟩ | ⟨s, m, e, h, -, hdouble, -, rfl⟩ := exists_unpack_of_exactValue? hx
  · exact absurd hp (not_le.mpr (by positivity))
  · have hlt : (m : ℚ) < 2 ^ 53 := by exact_mod_cast hdouble.lt
    have hle : signOf s * m * 2 ^ e ≤ m * 2 ^ e := by
      have habs := le_abs_self (signOf s * m * 2 ^ e)
      rwa [mul_assoc, abs_mul, abs_signOf, one_mul, abs_of_nonneg (by positivity),
        ← mul_assoc] at habs
    have hexponent : (2 : ℚ) ^ (k - 1) < 2 ^ e := by
      have hstrict : (m : ℚ) * 2 ^ e < 2 ^ 53 * 2 ^ e := by gcongr
      exact lt_of_mul_lt_mul_left ((hp.trans hle).trans_lt hstrict) (by positivity)
    have hk := (zpow_lt_zpow_iff_right₀ one_lt_two).mp hexponent
    exact exists_multiple_of_le s m (by omega)

end

/-! ## Bounds -/

/-- The first double is a number from 0 to the second one, which is not large. -/
def Below (x u : Float) : Prop :=
  ∃ p q, exactValue? x = some p ∧ exactValue? u = some q ∧ 0 ≤ p ∧ p ≤ q ∧ q ≤ 1000

instance (x u : Float) : Decidable (Below x u) :=
  decidable_of_iff
    ((exactValue? x).any fun p => (exactValue? u).any fun q =>
      decide (0 ≤ p) && decide (p ≤ q) && decide (q ≤ 1000)) <| by
    simp only [Option.any_eq_true, Bool.and_eq_true, decide_eq_true_iff, Below, and_assoc]
    exact ⟨fun ⟨p, hp, q, hq, h⟩ => ⟨p, q, hp, hq, h⟩, fun ⟨p, q, hp, hq, h⟩ => ⟨p, hp, q, hq, h⟩⟩

theorem below_ofNat {m n : ℕ} (h : m ≤ n) (hn : n ≤ 1000) :
    Below (OfNat.ofNat m) (OfNat.ofNat n) :=
  ⟨m, n, exactValue?_ofNat (by omega), exactValue?_ofNat (by omega), m.cast_nonneg,
    by exact_mod_cast h, by exact_mod_cast hn⟩

namespace Below

variable {x y u v w d e share : Float}

theorem trans (h : Below x u) (h' : Below u w) : Below x w := by
  obtain ⟨p, q, hp, hq, h0, hpq, -⟩ := h
  obtain ⟨q', r, hq', hr, -, hqr, hsmall⟩ := h'
  cases hq.symm.trans hq'
  exact ⟨p, r, hp, hr, h0, hpq.trans hqr, hsmall⟩

/-- Whatever has a bound is a number. -/
theorem self (h : Below x u) : Below x x := by
  obtain ⟨p, q, hp, -, h0, hpq, hsmall⟩ := h
  exact ⟨p, p, hp, hp, h0, le_rfl, hpq.trans hsmall⟩

theorem zero (h : Below x u) : Below 0 x := by
  obtain ⟨p, q, hp, -, h0, hpq, hsmall⟩ := h
  exact ⟨0, p, exactValue?_zero, hp, le_rfl, h0, hpq.trans hsmall⟩

theorem isSome (h : Below x u) : (value? x).isSome := by
  obtain ⟨p, q, hp, -⟩ := h
  exact Option.isSome_of_eq_some hp

theorem iff_le (hx : Below x x) (hy : Below y y) : Below x y ↔ x ≤ y := by
  obtain ⟨p, -, hp, -, h0, -⟩ := hx
  obtain ⟨q, q', hq, hq', -, -, hsmall⟩ := hy
  cases hq.symm.trans hq'
  rw [le_iff hp hq]
  refine ⟨?_, fun h => ⟨p, q, hp, hq, h0, h, hsmall⟩⟩
  rintro ⟨r, s, hr, hs, -, hle, -⟩
  cases hp.symm.trans hr
  cases hq.symm.trans hs
  exact hle

theorem not_iff_lt (hx : Below x x) (hy : Below y y) : ¬Below x y ↔ y < x := by
  rw [iff_le hx hy]
  obtain ⟨p, -, hp, -⟩ := hx
  obtain ⟨q, -, hq, -⟩ := hy
  rw [le_iff hp hq, lt_iff hq hp, not_le]

theorem of_lt (hx : Below x x) (hy : Below y y) (h : x < y) : Below x y := by
  obtain ⟨p, -, hp, -, h0, -⟩ := hx
  obtain ⟨q, q', hq, hq', -, -, hsmall⟩ := hy
  cases hq.symm.trans hq'
  exact ⟨p, q, hp, hq, h0, ((lt_iff hp hq).mp h).le, hsmall⟩

/-! ### Results -/

/-- The result of larger numbers bounds the result. -/
theorem of_rounds {p q r s : ℚ} (hx : exactValue? x = some r) (hu : exactValue? u = some s)
    (hp : Rounds p r) (hq : Rounds q s) (h0 : 0 ≤ p) (hpq : p ≤ q) (hsmall : Below u 1000) :
    Below x u := by
  obtain ⟨s', bound, hu', -, -, hbound, hlarge⟩ := hsmall
  cases hu.symm.trans hu'
  exact ⟨r, s, hx, hu, hp.nonneg h0, hp.mono hq h0 hpq, hbound.trans hlarge⟩

theorem add (hx : Below x u) (hy : Below y v) (hsmall : Below (u + v) 1000) :
    Below (x + y) (u + v) := by
  obtain ⟨p, a, hp, ha, hp0, hpa, ha1⟩ := hx
  obtain ⟨q, b, hq, hb, hq0, hqb, hb1⟩ := hy
  have hsum {s t : ℚ} (hs0 : 0 ≤ s) (hs1 : s ≤ 1000) (ht0 : 0 ≤ t) (ht1 : t ≤ 1000) :
      |s + t| < 2 ^ (1023 : ℤ) :=
    abs_lt_of_le (b := 2000) (by rw [abs_of_nonneg (by positivity)]; linarith) (by norm_num)
  obtain ⟨r, hr, hrounds⟩ :=
    exists_add hp hq (hsum hp0 (hpa.trans ha1) hq0 (hqb.trans hb1))
  obtain ⟨s, hs, hbounds⟩ :=
    exists_add ha hb (hsum (hp0.trans hpa) ha1 (hq0.trans hqb) hb1)
  exact of_rounds hr hs hrounds hbounds (by positivity) (add_le_add hpa hqb) hsmall

/-- A part of a number is no larger than the number. -/
theorem mul_share (hx : Below x u) (hshare : Below share 1) : Below (x * share) u := by
  refine trans ?_ hx
  obtain ⟨p, bound, hp, -, hp0, hpb, hsmall⟩ := hx
  obtain ⟨q, one, hq, hone, hq0, hq1, -⟩ := hshare
  cases hone.symm.trans exactValue?_one
  have hnonneg : 0 ≤ p * q := mul_nonneg hp0 hq0
  have hle : p * q ≤ p := mul_le_of_le_one_right hp0 hq1
  have hlarge := hpb.trans hsmall
  obtain ⟨r, hr, hrounds⟩ := exists_mul hp hq <|
    abs_lt_of_le (b := 1000) (by rw [abs_of_nonneg hnonneg]; exact hle.trans hlarge) (by norm_num)
  exact ⟨r, p, hr, hp, hrounds.nonneg hnonneg, hrounds.le_of_le hp hnonneg hle, hlarge⟩

theorem exactValue?_least : exactValue? 0.03125 = some (1 / 32) := by decide +kernel

/-- A larger number divided by a smaller one bounds the quotient, unless the divisor is tiny. -/
theorem div (hx : Below x u) (hdivisors : Below d e) (hlarge : Below 0.03125 d)
    (hsmall : Below (u / d) 1000) : Below (x / e) (u / d) := by
  obtain ⟨p, a, hp, ha, hp0, hpa, ha1⟩ := hx
  obtain ⟨t, q, ht, hq, -, htq, -⟩ := hdivisors
  obtain ⟨least, t', hleast, ht', -, htleast, -⟩ := hlarge
  cases ht.symm.trans ht'
  cases hleast.symm.trans exactValue?_least
  have hquotient {s t : ℚ} (hs0 : 0 ≤ s) (hs1 : s ≤ 1000) (ht : 1 / 32 ≤ t) :
      |s / t| < 2 ^ (1023 : ℤ) := by
    have htpos : 0 < t := lt_of_lt_of_le (by norm_num) ht
    have hle : s / t ≤ 2 ^ (15 : ℤ) := by
      rw [div_le_iff₀ htpos]
      calc s ≤ 2 ^ (15 : ℤ) * (1 / 32) := hs1.trans (by norm_num)
        _ ≤ 2 ^ (15 : ℤ) * t := by gcongr
    rw [abs_of_nonneg (by positivity)]
    exact hle.trans_lt (zpow_lt_zpow_right₀ one_lt_two (by norm_num))
  have htpos : 0 < t := lt_of_lt_of_le (by norm_num) htleast
  obtain ⟨r, hr, hrounds⟩ := exists_div hp hq (htpos.trans_le htq).ne'
    (hquotient hp0 (hpa.trans ha1) (htleast.trans htq))
  obtain ⟨s, hs, hbounds⟩ := exists_div ha ht htpos.ne' (hquotient (hp0.trans hpa) ha1 htleast)
  refine of_rounds hr hs hrounds hbounds (div_nonneg hp0 (htpos.le.trans htq)) ?_ hsmall
  have ha0 : 0 ≤ a := hp0.trans hpa
  gcongr

theorem one_sub (hx : Below x 1) : Below (1 - x) 1 := by
  obtain ⟨p, q, hp, hq, h0, hpq, -⟩ := hx
  cases hq.symm.trans exactValue?_one
  have hrest : 0 ≤ 1 - p := sub_nonneg.mpr hpq
  have hle : 1 - p ≤ 1 := sub_le_self 1 h0
  have habs : |1 - p| ≤ 1 := (abs_of_nonneg hrest).le.trans hle
  obtain ⟨r, hr, hrounds⟩ := exists_sub exactValue?_one hp (abs_lt_of_le habs (by norm_num))
  exact of_rounds hr exactValue?_one hrounds (rounds_self exactValue?_one) hrest hle
    (below_ofNat (by decide) le_rfl)

/-- A sum has the sum of the bounds as its bound, if they are integers. -/
theorem add_ofNat {m n : ℕ} (hx : Below x (OfNat.ofNat m)) (hy : Below y (OfNat.ofNat n))
    (h : m + n ≤ 1000) : Below (x + y) (OfNat.ofNat (m + n)) := by
  obtain ⟨p, a, hp, ha, hp0, hpa, -⟩ := hx
  obtain ⟨q, b, hq, hb, hq0, hqb, -⟩ := hy
  cases ha.symm.trans (exactValue?_ofNat (by omega))
  cases hb.symm.trans (exactValue?_ofNat (by omega))
  have hsum : exactValue? (OfNat.ofNat (m + n) : Float) = some ((m + n : ℕ) : ℚ) :=
    exactValue?_ofNat (by omega)
  have hnonneg : 0 ≤ p + q := add_nonneg hp0 hq0
  have hle : p + q ≤ (m + n : ℕ) := by
    rw [Nat.cast_add]
    exact add_le_add hpa hqb
  have hlarge : ((m + n : ℕ) : ℚ) ≤ 1000 := by exact_mod_cast h
  obtain ⟨r, hr, hrounds⟩ := exists_add hp hq <|
    abs_lt_of_le (b := 1000) (by rw [abs_of_nonneg hnonneg]; exact hle.trans hlarge) (by norm_num)
  exact ⟨r, _, hr, hsum, hrounds.nonneg hnonneg, hrounds.le_of_le hsum hnonneg hle, hlarge⟩

/-- On the way between two numbers one comes no farther than to the sum of their bounds. -/
theorem between {m n : ℕ} (hshare : Below share 1) (hx : Below x (OfNat.ofNat m))
    (hy : Below y (OfNat.ofNat n)) (h : m + n ≤ 1000) :
    Below (Color.between share x y) (OfNat.ofNat (m + n)) :=
  (hx.mul_share hshare.one_sub).add_ofNat (hy.mul_share hshare) h

/-- The middle of two numbers of the unit interval is in it. -/
theorem middle (hx : Below x 1) (hy : Below y 1) : Below ((x + y) / 2) 1 := by
  have htwo : Below 2 2 := below_ofNat le_rfl (by decide)
  have hhalf : Below 0.03125 2 ∧ Below (2 / 2) 1 := by decide +kernel
  have hsmall := hhalf.2.trans (below_ofNat (by decide) le_rfl : Below 1 1000)
  exact ((hx.add_ofNat hy (by decide)).div htwo hhalf.1 hsmall).trans hhalf.2

theorem larger (hx : Below x u) (hy : Below y v) :
    Below (Scalar.larger x y) (Scalar.larger u v) := by
  obtain ⟨p, a, hp, ha, hp0, hpa, ha1⟩ := hx
  obtain ⟨q, b, hq, hb, -, hqb, hb1⟩ := hy
  refine ⟨_, _, exactValue?_larger hp hq, exactValue?_larger ha hb, ?_⟩
  simp only [larger_eq_max]
  exact ⟨le_max_of_le_left hp0, max_le_max hpa hqb, max_le ha1 hb1⟩

theorem smaller (hx : Below x u) (hy : Below y v) :
    Below (Scalar.smaller x y) (Scalar.smaller u v) := by
  obtain ⟨p, a, hp, ha, hp0, hpa, ha1⟩ := hx
  obtain ⟨q, b, hq, hb, hq0, hqb, -⟩ := hy
  refine ⟨_, _, exactValue?_smaller hp hq, exactValue?_smaller ha hb, ?_⟩
  simp only [smaller_eq_min]
  exact ⟨le_min hp0 hq0, min_le_min hpa hqb, min_le_of_left_le ha1⟩

theorem larger_right (hx : Below x u) (hy : Below y v) : Below y (Scalar.larger x y) := by
  obtain ⟨p, a, hp, -, -, hpa, ha1⟩ := hx
  obtain ⟨q, b, hq, -, hq0, hqb, hb1⟩ := hy
  refine ⟨_, _, hq, exactValue?_larger hp hq, hq0, ?_⟩
  rw [larger_eq_max]
  exact ⟨le_max_right p q, max_le (hpa.trans ha1) (hqb.trans hb1)⟩

theorem smaller_right (hx : Below x u) (hy : Below y v) : Below (Scalar.smaller x y) y := by
  obtain ⟨p, a, hp, -, hp0, -⟩ := hx
  obtain ⟨q, b, hq, -, hq0, hqb, hb1⟩ := hy
  refine ⟨_, _, exactValue?_smaller hp hq, hq, ?_⟩
  rw [smaller_eq_min]
  exact ⟨le_min hp0 hq0, min_le_right p q, hqb.trans hb1⟩

end Below

theorem below_clamp (x : Float) : Below (clamp x) 1 := by
  obtain ⟨p, hp, h0, h1⟩ := exists_clamp x
  exact ⟨p, 1, hp, exactValue?_one, h0, h1, by norm_num⟩

/-- A hue is a number of the wheel, if the kept one is. -/
theorem below_hueOfRgb {kept : Float} (hkept : Below kept 360) (rgb : Triple Float) :
    Below (hueOfRgb kept rgb) 360 := by
  rcases hueOfRgb_eq_kept_or kept rgb with hkeep | ⟨v, r, hr, hrounds, h0, hlt⟩
  · rwa [hkeep]
  · exact ⟨r, 360, hr, exactValue?_wheel, hrounds.nonneg h0,
      hrounds.le_of_le exactValue?_wheel h0 hlt.le, by norm_num⟩

/-! ## The ends of the way -/

section

variable {x y u z : Float}

/-- A number times one and another one times zero make the first, in either order. -/
theorem exactValue?_mul_one_add_mul_zero (hx : Below x 1000) (hy : Below y 1000)
    (hu : exactValue? u = some 1) (hz : exactValue? z = some 0) :
    exactValue? (x * u + y * z) = exactValue? x ∧ exactValue? (y * z + x * u) = exactValue? x := by
  obtain ⟨p, bound, hp, hbound, h0, hpb, hsmall⟩ := hx
  obtain ⟨q, -, hq, -⟩ := hy
  have hlt : |p| < 2 ^ (1023 : ℤ) :=
    abs_lt_of_le (b := 1000) (by rw [abs_of_nonneg h0]; exact hpb.trans hsmall) (by norm_num)
  obtain ⟨r, hr, hrounds⟩ := exists_mul hp hu (by rwa [mul_one])
  rw [mul_one] at hrounds
  obtain rfl := hrounds.eq_self hp h0
  obtain ⟨s, hs, hzero⟩ := exists_mul hq hz (by rw [mul_zero, abs_zero]; positivity)
  rw [mul_zero] at hzero
  obtain rfl : s = 0 := le_antisymm (hzero.nonpos le_rfl) (hzero.nonneg le_rfl)
  rw [hp]
  constructor
  · obtain ⟨t, ht, hsum⟩ := exists_add hr hs (by rwa [add_zero])
    rw [add_zero] at hsum
    rw [ht, hsum.eq_self hp h0]
  · obtain ⟨t, ht, hsum⟩ := exists_add hs hr (by rwa [zero_add])
    rw [zero_add] at hsum
    rw [ht, hsum.eq_self hp h0]

theorem exactValue?_rest : exactValue? (1 - 0) = some 1 ∧ exactValue? (1 - 1) = some 0 := by
  decide +kernel

/-- No part of the way is its start. -/
theorem exactValue?_between_zero (hx : Below x 1000) (hy : Below y 1000) :
    exactValue? (Color.between 0 x y) = exactValue? x :=
  (exactValue?_mul_one_add_mul_zero hx hy exactValue?_rest.1 exactValue?_zero).1

/-- The whole way leads to its end. -/
theorem exactValue?_between_one (hx : Below x 1000) (hy : Below y 1000) :
    exactValue? (Color.between 1 x y) = exactValue? y :=
  (exactValue?_mul_one_add_mul_zero hy hx exactValue?_one exactValue?_rest.2).2

/-- Between neighbours that are multiples of one power of two there is no double. -/
theorem below_or_below_of_neighbours {low high : Float} {k n : ℤ} (hx : Below x 1000)
    (hlow : exactValue? low = some ((n : ℚ) * 2 ^ k))
    (hhigh : exactValue? high = some (((n : ℚ) + 1) * 2 ^ k))
    (hlarge : (2 : ℚ) ^ 53 * 2 ^ (k - 1) ≤ n * 2 ^ k) (hsmall : (n : ℚ) * 2 ^ k ≤ 1000) :
    Below x low ∨ Below high x := by
  obtain ⟨p, bound, hp, -, h0, hpb, hbound⟩ := hx
  by_cases hle : p ≤ n * 2 ^ k
  · exact .inl ⟨p, _, hp, hlow, h0, hle, hsmall⟩
  · obtain ⟨m, rfl⟩ := exists_multiple_of_le_value hp (hlarge.trans (not_le.mp hle).le)
    have hlt : (n : ℚ) < m := lt_of_mul_lt_mul_right (not_le.mp hle) (by positivity)
    have hstep : (n : ℚ) + 1 ≤ m := by exact_mod_cast Int.add_one_le_iff.mpr (Int.cast_lt.mp hlt)
    have hnonneg : (0 : ℚ) ≤ n * 2 ^ k := le_trans (by positivity) hlarge
    have hpow : (0 : ℚ) < 2 ^ k := by positivity
    refine .inr ⟨_, _, hhigh, hp, by linarith, ?_, hpb.trans hbound⟩
    exact mul_le_mul_of_nonneg_right hstep hpow.le

end

end Double

end ColorMod
