import ColorMod.Color.Written
import ColorMod.Proofs.DoubleArithmetic
import ColorMod.Proofs.SpaceChanges
import ColorMod.Proofs.WrittenNodes

/-!
# Channels in doubles

Clamping makes any double a number of the unit interval, one that is no number included.  The hue of
an rgb color is finite when the hue that it keeps is: the chroma that differences are divided by is
at least about as large as they are.

* `exactValue?_clamp`, `exists_clamp`: what a clamped double stands for.
* `isSome_hueOfRgb`, `isSome_first_channelsIn`: finite hues of rgb channels and of converted colors.
* `byte_channelOfByte`: a byte is the nearest one to its own channel.
-/

namespace ColorMod

open Scalar Written

namespace Double

/-- A number of a size that no double is too small for is rounded to a double that is near. -/
theorem Rounds.abs_sub_le {v r b : ℚ} (h : Rounds v r) (hv : |v| ≤ b) (hb : 1 ≤ b) :
    |r - v| ≤ b / (4 * 10 ^ 15) := by
  have hplace : (2 : ℚ) ^ (-52 : ℤ) ≤ 1 / (4 * 10 ^ 15) := by norm_num
  refine h.near.trans (max_le ?_ ?_)
  · calc |v| * 2 ^ (-52 : ℤ) ≤ b * (1 / (4 * 10 ^ 15)) := by gcongr
      _ = b / (4 * 10 ^ 15) := by ring
  · calc (2 : ℚ) ^ (-1074 : ℤ) ≤ 2 ^ (-52 : ℤ) := by gcongr <;> norm_num
      _ ≤ 1 / (4 * 10 ^ 15) := hplace
      _ ≤ b / (4 * 10 ^ 15) := by gcongr

/-- Rounding does not lead far out of a bound. -/
theorem Rounds.abs_le_add {v r b : ℚ} (h : Rounds v r) (hv : |v| ≤ b) (hb : 1 ≤ b) :
    |r| ≤ b + b / (4 * 10 ^ 15) := by
  have htriangle := abs_add_le v (r - v)
  rw [add_sub_cancel] at htriangle
  exact htriangle.trans (add_le_add hv (h.abs_sub_le hv hb))

/-- Any number is rounded to a double that is near, up to a positive double. -/
theorem Rounds.abs_sub_le_half_add {v r c : ℚ} (h : Rounds v r) (hc : 2 ^ (-1074 : ℤ) ≤ c) :
    |r - v| ≤ |v| / 2 + c := by
  have hhalf : |v| * 2 ^ (-52 : ℤ) ≤ |v| / 2 := by
    rw [div_eq_mul_inv]
    gcongr
    norm_num
  have hpos : (0 : ℚ) < 2 ^ (-1074 : ℤ) := by positivity
  exact h.near.trans <| (max_le_add_of_nonneg (by positivity) hpos.le).trans (add_le_add hhalf hc)

/-- What is not large is rounded to a finite double. -/
theorem abs_lt_of_le {v b : ℚ} (hv : |v| ≤ b) (hb : b ≤ 10 ^ 4) : |v| < 2 ^ (1023 : ℤ) := by
  have hpow : (10 : ℚ) ^ 4 < 2 ^ (1023 : ℤ) :=
    lt_of_lt_of_le (by norm_num : (10 : ℚ) ^ 4 < 2 ^ (14 : ℤ))
      (zpow_le_zpow_right₀ (by norm_num) (by norm_num))
  exact hv.trans_lt (hb.trans_lt hpow)

/-- There is a least positive double. -/
theorem two_zpow_le_abs {x : Float} {p : ℚ} (hx : exactValue? x = some p) (hp : p ≠ 0) :
    2 ^ (-1074 : ℤ) ≤ |p| := by
  obtain ⟨rfl, -⟩ | ⟨s, m, e, h, -, hdouble, -, rfl⟩ := exists_unpack_of_exactValue? hx
  · exact absurd rfl hp
  · have hm : (1 : ℚ) ≤ m := by exact_mod_cast h
    have hpow : (2 : ℚ) ^ (-1074 : ℤ) ≤ 2 ^ e := zpow_le_zpow_right₀ (by norm_num) hdouble.le
    rw [mul_assoc, abs_mul, abs_signOf, one_mul, abs_of_pos (by positivity)]
    exact hpow.trans (le_mul_of_one_le_left (by positivity) hm)

theorem exactValue?_zero : exactValue? 0 = some 0 := exactValue?_ofNat (by decide)

theorem exactValue?_one : exactValue? 1 = some 1 := exactValue?_ofNat (by decide)

theorem exactValue?_hundred : exactValue? 100 = some 100 := exactValue?_ofNat (by decide)

theorem exactValue?_wheel : exactValue? 360 = some 360 := exactValue?_ofNat (by decide)

theorem exactValue?_fullByte : exactValue? 255 = some 255 := exactValue?_ofNat (by decide)

/-- A double between zero and one is finite. -/
theorem exists_value_of_lt {x : Float} (h0 : 0 < x) (h1 : x < 1) : ∃ p, exactValue? x = some p := by
  rw [lt_iff_compare] at h0 h1
  cases hunpack : x.toModel.unpack with
  | notANumber =>
    rw [hunpack] at h1
    cases h1
  | infinity s =>
    rw [hunpack] at h0 h1
    cases s
    · exact absurd h0 (by decide +kernel)
    · exact absurd h1 (by decide +kernel)
  | zero s => exact ⟨0, exactValue?_of_zero hunpack⟩
  | finite s m e h => exact ⟨_, exactValue?_of_unpack hunpack⟩

end Double

open Double

/-! ## Clamping -/

theorem clamp_cases (x : Float) :
    clamp x = 0 ∨ clamp x = 1 ∨ (0 < x ∧ x < 1) ∧ clamp x = x := by
  have h01 : (0 : Float) < 1 := (lt_iff exactValue?_zero exactValue?_one).mpr zero_lt_one
  rw [clamp, clampTo, larger, smaller]
  by_cases h1 : x < 1
  · rw [if_pos h1]
    by_cases h0 : 0 < x
    · exact .inr (.inr ⟨⟨h0, h1⟩, if_pos h0⟩)
    · exact .inl (if_neg h0)
  · rw [if_neg h1]
    exact .inr (.inl (if_pos h01))

/-- A clamped double lies in the unit interval, whatever it was before. -/
theorem exists_clamp (x : Float) : ∃ p, exactValue? (clamp x) = some p ∧ 0 ≤ p ∧ p ≤ 1 := by
  rcases clamp_cases x with h | h | ⟨⟨h0, h1⟩, h⟩
  · exact ⟨0, by rw [h, exactValue?_zero], le_rfl, zero_le_one⟩
  · exact ⟨1, by rw [h, exactValue?_one], zero_le_one, le_rfl⟩
  · obtain ⟨p, hp⟩ := exists_value_of_lt h0 h1
    rw [lt_iff exactValue?_zero hp] at h0
    rw [lt_iff hp exactValue?_one] at h1
    exact ⟨p, by rw [h, hp], h0.le, h1.le⟩

theorem clamp_clamp_double (x : Float) : clamp (clamp x) = clamp x := by
  rcases clamp_cases x with h | h | ⟨-, h⟩
  · rw [h]
    rfl
  · rw [h]
    rfl
  · rw [h, h]

/-! ## Hues -/

section

variable {x y : Float} {p q : ℚ} (hx : exactValue? x = some p) (hy : exactValue? y = some q)

include hx hy

theorem exactValue?_larger : exactValue? (larger x y) = some (larger p q) := by
  have hlt := lt_iff hx hy
  rw [larger, larger]
  split
  · next h => rw [hy, if_pos (hlt.mp h)]
  · next h => rw [hx, if_neg (hlt.not.mp h)]

theorem exactValue?_smaller : exactValue? (smaller x y) = some (smaller p q) := by
  have hlt := lt_iff hy hx
  rw [smaller, smaller]
  split
  · next h => rw [hy, if_pos (hlt.mp h)]
  · next h => rw [hx, if_neg (hlt.not.mp h)]

/-- The remainder is the exact one, rounded. -/
theorem exists_rem (h0 : 0 < q) (hq : q ≤ 1000) :
    ∃ r, exactValue? (rem x y) = some r ∧ Rounds (rem p q) r := by
  have hnonneg := rem_nonneg h0 p
  have hlt := rem_lt h0 p
  change ∃ r, exactValue? (floatRem x y) = some r ∧ _
  rw [floatRem, hx, hy]
  have habs : |rem p q| ≤ 1000 := by
    rw [abs_of_nonneg hnonneg]
    linarith
  exact exists_nearest (abs_lt_of_le habs (by norm_num))

end

/-- A finite double is clamped to the number of the unit interval nearest to what it stands for. -/
theorem exactValue?_clamp {x : Float} {p : ℚ} (hx : exactValue? x = some p) :
    exactValue? (clamp x) = some (clamp p) :=
  exactValue?_larger exactValue?_zero (exactValue?_smaller exactValue?_one hx)

/-- A difference of two channels is at most about as large as the chroma, and the quotient of the
two is small. -/
theorem exists_div_chroma {x y high low : Float} {p q h l : ℚ} (hx : exactValue? x = some p)
    (hy : exactValue? y = some q) (hhigh : exactValue? high = some h)
    (hlow : exactValue? low = some l) (hle : |p - q| ≤ h - l) (hone : h - l ≤ 1)
    (hchroma : ¬(high - low == 0)) :
    ∃ r, exactValue? ((x - y) / (high - low)) = some r ∧ |r| ≤ 10 := by
  have hnonneg : 0 ≤ h - l := (abs_nonneg _).trans hle
  have habs : |h - l| = h - l := abs_of_nonneg hnonneg
  obtain ⟨d, hd, hdiff⟩ := exists_sub hx hy (abs_lt_of_le (hle.trans hone) (by norm_num))
  obtain ⟨c, hc, hrounds⟩ := exists_sub hhigh hlow
    (abs_lt_of_le (habs.le.trans hone) (by norm_num))
  have hne : c ≠ 0 := fun hzero => hchroma ((beq_iff hc exactValue?_zero).mpr hzero)
  have hpos : 0 ≤ c := hrounds.nonneg hnonneg
  have hleast : 2 ^ (-1074 : ℤ) ≤ c := by
    have hleast := two_zpow_le_abs hc hne
    rwa [abs_of_nonneg hpos] at hleast
  -- the chroma is rounded to no less than a quarter of itself
  have hquarter : h - l ≤ 4 * c := by
    have hnear := (abs_le.mp (hrounds.abs_sub_le_half_add hleast)).1
    rw [habs] at hnear
    linarith only [hnear]
  have hbound : |d| ≤ 9 * c := by
    have hnear := hdiff.abs_sub_le_half_add hleast
    have htriangle := abs_add_le (d - (p - q)) (p - q)
    rw [sub_add_cancel] at htriangle
    linarith only [hnear, htriangle, hle, hquarter, hpos]
  have hquotient : |d / c| ≤ 9 := by
    rw [abs_div, abs_of_nonneg hpos, div_le_iff₀ (lt_of_le_of_ne hpos hne.symm)]
    exact hbound
  obtain ⟨r, hr, hnear⟩ := exists_div hd hc hne (abs_lt_of_le hquotient (by norm_num))
  exact ⟨r, hr, (hnear.abs_le_add hquotient (by norm_num)).trans (by norm_num)⟩

/-- The sixths of the wheel that a hue of rgb channels is counted in, as doubles compute them. -/
theorem exists_sixths {r g b : Float} {p q s : ℚ} (hr : exactValue? r = some p)
    (hg : exactValue? g = some q) (hb : exactValue? b = some s) (hp : 0 ≤ p ∧ p ≤ 1)
    (hq : 0 ≤ q ∧ q ≤ 1) (hs : 0 ≤ s ∧ s ≤ 1) :
    let high := Triple.largest ⟨r, g, b⟩
    let chroma := high - Triple.smallest ⟨r, g, b⟩
    ¬(chroma == 0) → ∃ t, exactValue? (if high == r then rem ((g - b) / chroma) 6
      else if high == g then (b - r) / chroma + 2 else (r - g) / chroma + 4) = some t ∧
        |t| ≤ 20 := by
  intro high chroma hchroma
  have hhigh : exactValue? high = some (max (max p q) s) := by
    rw [← larger_eq_max, ← larger_eq_max]
    exact exactValue?_larger (exactValue?_larger hr hg) hb
  have hlow : exactValue? (Triple.smallest ⟨r, g, b⟩) = some (min (min p q) s) := by
    rw [← smaller_eq_min, ← smaller_eq_min]
    exact exactValue?_smaller (exactValue?_smaller hr hg) hb
  have hmax : max (max p q) s ≤ 1 := max_le (max_le hp.2 hq.2) hs.2
  have hmin : 0 ≤ min (min p q) s := le_min (le_min hp.1 hq.1) hs.1
  have hquotient : ∀ {x y : Float} {v w : ℚ}, exactValue? x = some v → exactValue? y = some w →
      v ≤ max (max p q) s → w ≤ max (max p q) s → min (min p q) s ≤ v → min (min p q) s ≤ w →
      ∃ t, exactValue? ((x - y) / chroma) = some t ∧ |t| ≤ 10 := by
    intro x y v w hx hy hv hw hv' hw'
    refine exists_div_chroma hx hy hhigh hlow ?_ (by linarith) hchroma
    rw [abs_le]
    constructor <;> linarith
  have hsum : ∀ {x y : Float} {v w : ℚ}, exactValue? x = some v → |v| ≤ 10 →
      exactValue? y = some w → |w| ≤ 4 → ∃ t, exactValue? (x + y) = some t ∧ |t| ≤ 20 := by
    intro x y v w hx hv hy hw
    have hbound : |v + w| ≤ 14 := (abs_add_le v w).trans (by linarith)
    obtain ⟨t, ht, hnear⟩ := exists_add hx hy (abs_lt_of_le hbound (by norm_num))
    exact ⟨t, ht, (hnear.abs_le_add hbound (by norm_num)).trans (by norm_num)⟩
  split_ifs
  · obtain ⟨t, ht, -⟩ := hquotient hg hb (by simp) (by simp) (by simp) (by simp)
    have hsix : exactValue? 6 = some 6 := exactValue?_ofNat (by decide)
    obtain ⟨u, hu, hrounds⟩ := exists_rem ht hsix (by norm_num) (by norm_num)
    have h0 := rem_nonneg (by norm_num : (0 : ℚ) < 6) t
    have h6 := rem_lt (by norm_num : (0 : ℚ) < 6) t
    have hbound : |rem t 6| ≤ 6 := by
      rw [abs_of_nonneg h0]
      exact h6.le
    exact ⟨u, hu, (hrounds.abs_le_add hbound (by norm_num)).trans (by norm_num)⟩
  · obtain ⟨t, ht, hsmall⟩ := hquotient hb hr (by simp) (by simp) (by simp) (by simp)
    exact hsum ht hsmall (exactValue?_ofNat (by decide) : exactValue? 2 = some 2) (by norm_num)
  · obtain ⟨t, ht, hsmall⟩ := hquotient hr hg (by simp) (by simp) (by simp) (by simp)
    exact hsum ht hsmall (exactValue?_ofNat (by decide) : exactValue? 4 = some 4) (by norm_num)

/-- The hue of rgb channels is kept, or a number of the wheel that is rounded. -/
theorem hueOfRgb_eq_kept_or (kept : Float) (rgb : Triple Float) : hueOfRgb kept rgb = kept ∨
    ∃ v r, exactValue? (hueOfRgb kept rgb) = some r ∧ Rounds v r ∧ 0 ≤ v ∧ v < 360 := by
  obtain ⟨r, hr, hr01⟩ := exists_clamp rgb.first
  obtain ⟨g, hg, hg01⟩ := exists_clamp rgb.second
  obtain ⟨b, hb, hb01⟩ := exists_clamp rgb.third
  by_cases hgray : Triple.largest (rgb.map clamp) - Triple.smallest (rgb.map clamp) == 0
  · exact .inl (if_pos hgray)
  · obtain ⟨t, ht, hsmall⟩ := exists_sixths hr hg hb hr01 hg01 hb01 hgray
    have hproduct : |t * 60| ≤ 1200 := by
      rw [abs_mul, abs_of_pos (by norm_num : (0 : ℚ) < 60)]
      linarith
    obtain ⟨u, hu, -⟩ := exists_mul ht (exactValue?_ofNat (by decide) : exactValue? 60 = some 60)
      (abs_lt_of_le hproduct (by norm_num))
    obtain ⟨v, hv, hrounds⟩ := exists_rem hu exactValue?_wheel (by norm_num) (by norm_num)
    have hhue : exactValue? (hueOfRgb kept rgb) = some v :=
      (congrArg exactValue? (if_neg hgray)).trans hv
    exact .inr ⟨_, v, hhue, hrounds, rem_nonneg (by norm_num) u, rem_lt (by norm_num) u⟩

/-- The hue of rgb channels is finite, unless it is kept and the kept one is not. -/
theorem isSome_hueOfRgb {kept : Float} (hkept : (value? kept).isSome) (rgb : Triple Float) :
    (value? (hueOfRgb kept rgb)).isSome := by
  rcases hueOfRgb_eq_kept_or kept rgb with hkeep | ⟨v, r, hhue, -⟩
  · rwa [hkeep]
  · exact Option.isSome_of_eq_some hhue

theorem first_of_hslOfRgb {α : Type} [Scalar α] {kept : α} {rgb t : Triple α}
    (h : hslOfRgb kept rgb = .ok t) :
    t.first = hueOfRgb kept (rgb.map clamp) := by
  rw [hslOfRgb] at h
  dsimp only at h
  split at h
  · cases h
    rfl
  · rw [divide] at h
    split at h
    · cases h
    · cases h
      rfl

/-- A converted color has a finite hue, if the color that it comes from has one. -/
theorem isSome_first_channelsIn {c : Color Float} {space : ColorSpace} {t : Triple Float}
    (hhue : (value? c.hue).isSome) (hfirst : c.space ≠ .rgb → (value? c.channels.first).isSome)
    (hspace : space ≠ .rgb) (h : c.channelsIn space = .ok t) : (value? t.first).isSome := by
  by_cases hown : space = c.space
  · subst hown
    cases c.channelsIn_space.symm.trans h
    exact hfirst hspace
  · cases space with
    | rgb => exact absurd rfl hspace
    | hsl =>
      rw [Color.channelsIn, Color.hsl_of_ne hown] at h
      cases hrgb : c.rgb with
      | error e =>
        rw [hrgb] at h
        cases h
      | ok rgb =>
        rw [hrgb] at h
        rw [first_of_hslOfRgb h]
        exact isSome_hueOfRgb hhue _
    | hwb =>
      rw [Color.channelsIn, Color.hwb_of_ne hown] at h
      cases hrgb : c.rgb with
      | error e =>
        rw [hrgb] at h
        cases h
      | ok rgb =>
        rw [hrgb] at h
        cases h
        exact isSome_hueOfRgb hhue _

/-! ## Bytes -/

theorem exists_percentage (x : Float) : ∃ p q, exactValue? (clamp x) = some p ∧
    (0 ≤ p ∧ p ≤ 1) ∧ exactValue? (clamp x * 100) = some q ∧ Rounds (p * 100) q := by
  obtain ⟨p, hp, h0, h1⟩ := exists_clamp x
  have hbound : |p * 100| ≤ 100 := by
    rw [abs_of_nonneg (by positivity)]
    linarith
  obtain ⟨q, hq, hrounds⟩ := exists_mul hp exactValue?_hundred (abs_lt_of_le hbound (by norm_num))
  exact ⟨p, q, hp, ⟨h0, h1⟩, hq, hrounds⟩

/-- A byte is the floor of a number that is near to 255 channels and a half. -/
theorem exists_byte (x : Float) : ∃ p s, exactValue? (clamp x) = some p ∧ (0 ≤ p ∧ p ≤ 1) ∧
    byte x = ⌊s⌋.toNat ∧ |s - (p * 255 + 1 / 2)| ≤ 1 / 4 := by
  obtain ⟨p, hp, h0, h1⟩ := exists_clamp x
  have hbound : |p * 255| ≤ 255 := by
    rw [abs_of_nonneg (by positivity)]
    linarith
  obtain ⟨q, hq, hrounds⟩ := exists_mul hp exactValue?_fullByte (abs_lt_of_le hbound (by norm_num))
  have hnear := abs_le.mp (hrounds.abs_sub_le hbound (by norm_num))
  have hq0 := hrounds.nonneg (by positivity)
  have hbound' : |q + 1 / 2| ≤ 256 := by
    rw [abs_of_nonneg (by positivity)]
    linarith
  obtain ⟨s, hs, hrounds'⟩ := exists_add hq (by decide +kernel : exactValue? 0.5 = some (1 / 2))
    (abs_lt_of_le hbound' (by norm_num))
  have hnear' := abs_le.mp (hrounds'.abs_sub_le hbound' (by norm_num))
  have hvalue : value? (clamp x * 255 + 0.5) = some s := hs
  refine ⟨p, s, hp, ⟨h0, h1⟩, by rw [byte, hvalue]; rfl, abs_le.mpr ⟨?_, ?_⟩⟩ <;> linarith

theorem byte_lt_double (x : Float) : byte x < 256 := by
  obtain ⟨p, s, -, ⟨-, h1⟩, hbyte, hnear⟩ := exists_byte x
  have hs := (abs_le.mp hnear).2
  have hfloor : ⌊s⌋ < 256 := by
    rw [Int.floor_lt]
    norm_num
    linarith
  omega

/-- A byte is a double. -/
theorem exactValue?_ofDecimal_byte {n : ℕ} (hn : n < 256) :
    exactValue? (Scalar.ofDecimal n 0) = some (n : ℚ) := by
  have habs : |(n : ℚ)| ≤ 256 := by
    rw [Nat.abs_cast]
    exact_mod_cast hn.le
  obtain ⟨r, hr, hrounds⟩ := exists_ofDecimal n (by decide : 0 ≤ 2048)
    (by simpa using abs_lt_of_le habs (by norm_num))
  have hinteger : Rounds n r := by simpa using hrounds
  rw [hinteger.eq_of_natCast (hn.trans (by decide))] at hr
  exact hr

/-- The channel of a byte. -/
theorem exists_channelOfByte {n : ℕ} (hn : n < 256) :
    ∃ t, exactValue? (channelOfByte n) = some t ∧ Rounds (n / 255) t ∧
      |t - n / 255| ≤ 1 / 1000000 := by
  have hle : (n : ℚ) ≤ 255 := by exact_mod_cast Nat.le_of_lt_succ hn
  have hbound : |(n : ℚ) / 255| ≤ 1 := by
    rw [abs_of_nonneg (by positivity)]
    exact (div_le_one (by norm_num)).mpr hle
  obtain ⟨t, ht, hrounds⟩ := exists_div (exactValue?_ofDecimal_byte hn) exactValue?_fullByte
    (by norm_num) (abs_lt_of_le hbound (by norm_num))
  exact ⟨t, ht, hrounds, (hrounds.abs_sub_le hbound le_rfl).trans (by norm_num)⟩

instance : ClampsPlain Float where
  clamp x := by
    obtain ⟨p, hp, h0, -⟩ := exists_clamp x
    exact ⟨p, hp, h0⟩
  percentage x := by
    obtain ⟨p, q, -, ⟨h0, -⟩, hq, hrounds⟩ := exists_percentage x
    exact ⟨q, hq, hrounds.nonneg (by positivity)⟩
  byte_lt := byte_lt_double
  isSome_ofDecimal n hn := Option.isSome_of_eq_some (exactValue?_ofDecimal_byte hn)

/-- A byte is the nearest one to its own channel. -/
theorem byte_channelOfByte {n : ℕ} (hn : n < 256) : byte (channelOfByte n : Float) = n := by
  have hle : (n : ℚ) ≤ 255 := by exact_mod_cast Nat.le_of_lt_succ hn
  obtain ⟨t, ht, -, hchannel⟩ := exists_channelOfByte hn
  obtain ⟨p, s, hp, -, hbyte, hs⟩ := exists_byte (channelOfByte n)
  have hclamp : p = clamp t := Option.some.inj (hp.symm.trans (exactValue?_clamp ht))
  -- the channel is so near to its exact value that 255 times the distance stays below a quarter
  have hclose := abs_le.mp <| (abs_clamp_sub_le (by positivity : (0 : ℚ) ≤ n / 255)
    ((div_le_one (by norm_num)).mpr hle) t).trans hchannel
  rw [← hclamp] at hclose
  have hs' := abs_le.mp hs
  have hfloor : ⌊s⌋ = n := by
    rw [Int.floor_eq_iff, Int.cast_natCast]
    constructor <;> linarith
  omega

end ColorMod
