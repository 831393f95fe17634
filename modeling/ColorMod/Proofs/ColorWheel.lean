import ColorMod.Color.Basic
import ColorMod.Proofs.Exact

/-!
# The color wheel in exact arithmetic

A hue counted in sixths of the wheel has a pure color, of which one channel is full and one empty
(`pureColor`).  Any rgb channels that are not all the same are those of a pure color, spread over the
interval from the smallest to the largest (`Triple.exists_spread_pureColor`), and their hue is that
of the pure color (`hueOfRgb_spread`).

* `rgbOfHsl_eq`, `rgbOfHwb_eq`: both ways to rgb spread a pure color over an interval in the unit
  interval.
* `rgbOfHsl_hslOfRgb`, `rgbOfHwb_hwbOfRgb`: from rgb and back is the way to where it started.
-/

namespace ColorMod

open Scalar

/-! ## Pure colors -/

/-- The pure color at a hue counted in sixths of the wheel. -/
def pureColor (x : ℚ) : Triple ℚ :=
  if x < 1 then ⟨1, x, 0⟩
  else if x < 2 then ⟨2 - x, 1, 0⟩
  else if x < 3 then ⟨0, 1, x - 2⟩
  else if x < 4 then ⟨0, 4 - x, 1⟩
  else if x < 5 then ⟨x - 4, 0, 1⟩
  else ⟨1, 0, 6 - x⟩

/-- The hue of channels that differ, in sixths of the wheel. -/
def sixthsOfRgb (t : Triple ℚ) : ℚ :=
  let chroma := t.largest - t.smallest
  if t.largest = t.first then rem ((t.second - t.third) / chroma) 6
  else if t.largest = t.second then (t.third - t.first) / chroma + 2
  else (t.first - t.second) / chroma + 4

section

variable {x : ℚ}

theorem largest_pureColor (hx : 0 ≤ x ∧ x < 6) : (pureColor x).largest = 1 := by
  obtain ⟨h0, h6⟩ := hx
  unfold pureColor
  split_ifs <;> refine Triple.largest_eq_iff.mpr ⟨⟨?_, ?_, ?_⟩, ?_⟩ <;> grind

theorem smallest_pureColor (hx : 0 ≤ x ∧ x < 6) : (pureColor x).smallest = 0 := by
  obtain ⟨h0, h6⟩ := hx
  unfold pureColor
  split_ifs <;> refine Triple.smallest_eq_iff.mpr ⟨⟨?_, ?_, ?_⟩, ?_⟩ <;> grind

theorem sixthsOfRgb_pureColor (hx : 0 ≤ x ∧ x < 6) : sixthsOfRgb (pureColor x) = x := by
  have habove : ∀ y : ℚ, 0 ≤ y → y < 6 → rem y 6 = y := fun y => rem_of_mem
  have hbelow : ∀ y : ℚ, -6 ≤ y → y < 0 → rem y 6 = y + 6 := by
    intro y h0 h6
    have h := rem_add_mul (x := y + 6) (y := 6) (by linarith) (by linarith) (-1)
    simpa using h
  rw [sixthsOfRgb, largest_pureColor hx, smallest_pureColor hx, pureColor]
  obtain ⟨h0, h6⟩ := hx
  -- at a whole number of sixths two channels are full, and the first of them is looked at
  split_ifs <;> norm_num at * <;> grind

end

/-! ## Spreading -/

namespace Triple

/-- The channels moved from the unit interval to the interval of length `chroma` above `base`. -/
def spread (chroma base : ℚ) (t : Triple ℚ) : Triple ℚ :=
  t.map (· * chroma + base)

variable {chroma base : ℚ} (t : Triple ℚ)

theorem largest_spread (hchroma : 0 ≤ chroma) :
    (t.spread chroma base).largest = t.largest * chroma + base := by
  have hmono : Monotone fun v : ℚ => v * chroma + base := fun v w h => by
    dsimp only
    gcongr
  rw [largest_eq, largest_eq, hmono.map_max, hmono.map_max]
  rfl

theorem smallest_spread (hchroma : 0 ≤ chroma) :
    (t.spread chroma base).smallest = t.smallest * chroma + base := by
  have hmono : Monotone fun v : ℚ => v * chroma + base := fun v w h => by
    dsimp only
    gcongr
  rw [smallest_eq, smallest_eq, hmono.map_min, hmono.map_min]
  rfl

/-- The hue depends on how the channels stand to each other only. -/
theorem sixthsOfRgb_spread (hchroma : 0 < chroma) :
    sixthsOfRgb (t.spread chroma base) = sixthsOfRgb t := by
  have hsub : ∀ v w : ℚ, v * chroma + base - (w * chroma + base) = (v - w) * chroma := by
    intro v w
    ring
  have hdiv : ∀ v w : ℚ, v * chroma / (w * chroma) = v / w := fun v w =>
    mul_div_mul_right v w hchroma.ne'
  have hinj : ∀ v w : ℚ, v * chroma + base = w * chroma + base ↔ v = w := fun v w => by
    rw [add_left_inj, mul_left_inj' hchroma.ne']
  rw [sixthsOfRgb, largest_spread t hchroma.le, smallest_spread t hchroma.le]
  simp only [spread, map, hsub, hdiv, hinj]
  rfl

theorem spread_zero (base : ℚ) : t.spread 0 base = .replicate base := by
  simp [spread, map, replicate]

variable {t}

theorem InUnit.spread (h : t.InUnit) (hchroma : 0 ≤ chroma) (hbase : 0 ≤ base)
    (htop : chroma + base ≤ 1) : (t.spread chroma base).InUnit := by
  have hmem : ∀ v : ℚ, 0 ≤ v ∧ v ≤ 1 → 0 ≤ v * chroma + base ∧ v * chroma + base ≤ 1 := by
    rintro v ⟨h0, h1⟩
    exact ⟨by positivity, by nlinarith⟩
  exact ⟨hmem _ h.first, hmem _ h.second, hmem _ h.third⟩

/-- Channels of which one is empty and one is full are those of a pure color. -/
theorem exists_eq_pureColor (hlargest : t.largest = 1) (hsmallest : t.smallest = 0) :
    ∃ x, (0 ≤ x ∧ x < 6) ∧ t = pureColor x := by
  obtain ⟨hle, hfull⟩ := largest_eq_iff.mp hlargest
  obtain ⟨hge, hempty⟩ := smallest_eq_iff.mp hsmallest
  obtain ⟨r, g, b⟩ := t
  dsimp only at *
  unfold pureColor
  rcases hfull with rfl | rfl | rfl <;> rcases hempty with h | h | h <;> try subst h
  · exact absurd h one_ne_zero
  · -- pure red is the start of the wheel and not its end
    by_cases hb : b = 0
    · exact ⟨0, by grind, by grind⟩
    · exact ⟨6 - b, by grind, by grind⟩
  · exact ⟨g, by grind, by grind⟩
  · exact ⟨2 + b, by grind, by grind⟩
  · exact absurd h one_ne_zero
  · exact ⟨2 - r, by grind, by grind⟩
  · exact ⟨4 - g, by grind, by grind⟩
  · exact ⟨4 + r, by grind, by grind⟩
  · exact absurd h one_ne_zero

/-- Channels that differ are those of a pure color, spread between the smallest and the largest. -/
theorem exists_spread_pureColor (h : t.smallest < t.largest) :
    ∃ x, (0 ≤ x ∧ x < 6) ∧ t = (pureColor x).spread (t.largest - t.smallest) t.smallest := by
  have hchroma : 0 < t.largest - t.smallest := by linarith
  let u : Triple ℚ := t.map fun v => (v - t.smallest) / (t.largest - t.smallest)
  have hu : u.spread (t.largest - t.smallest) t.smallest = t := by
    simp only [u, spread, map, div_mul_cancel₀ _ hchroma.ne', sub_add_cancel]
  have hlargest : t.largest = u.largest * (t.largest - t.smallest) + t.smallest := by
    rw [← largest_spread u hchroma.le, hu]
  have hsmallest : t.smallest = u.smallest * (t.largest - t.smallest) + t.smallest := by
    rw [← smallest_spread u hchroma.le, hu]
  have hfull : u.largest = 1 := mul_right_cancel₀ hchroma.ne' (by linarith)
  have hempty : u.smallest = 0 := mul_right_cancel₀ hchroma.ne' (by linarith)
  obtain ⟨x, hx, hux⟩ := exists_eq_pureColor hfull hempty
  exact ⟨x, hx, by rw [← hux, hu]⟩

end Triple

theorem inUnit_pureColor {x : ℚ} (hx : 0 ≤ x ∧ x < 6) : (pureColor x).InUnit := by
  obtain ⟨⟨hr, hg, hb⟩, -⟩ := Triple.largest_eq_iff.mp (largest_pureColor hx)
  obtain ⟨⟨hr', hg', hb'⟩, -⟩ := Triple.smallest_eq_iff.mp (smallest_pureColor hx)
  exact ⟨⟨hr', hr⟩, ⟨hg', hg⟩, ⟨hb', hb⟩⟩

/-! ## The hue of rgb channels -/

theorem hueOfRgb_eq (kept : ℚ) (t : Triple ℚ) :
    hueOfRgb kept t = if (t.map clamp).largest - (t.map clamp).smallest = 0 then kept
      else rem (sixthsOfRgb (t.map clamp) * 60) 360 := by
  rw [hueOfRgb, sixthsOfRgb]
  simp only [beq_iff_eq]

theorem hueOfRgb_of_gray (kept : ℚ) {t : Triple ℚ} (ht : t.InUnit) (hgray : t.largest = t.smallest) :
    hueOfRgb kept t = kept := by
  rw [hueOfRgb_eq, ht.map_clamp, if_pos (by linarith)]

/-- The hue of a pure color that is spread over some interval. -/
theorem hueOfRgb_spread (kept : ℚ) {chroma base x : ℚ} (hx : 0 ≤ x ∧ x < 6) (hchroma : 0 < chroma)
    (hbase : 0 ≤ base) (htop : chroma + base ≤ 1) :
    hueOfRgb kept ((pureColor x).spread chroma base) = 60 * x := by
  have hunit := (inUnit_pureColor hx).spread hchroma.le hbase htop
  rw [hueOfRgb_eq, hunit.map_clamp, Triple.largest_spread _ hchroma.le,
    Triple.smallest_spread _ hchroma.le, largest_pureColor hx, smallest_pureColor hx,
    Triple.sixthsOfRgb_spread _ hchroma, sixthsOfRgb_pureColor hx, if_neg (by linarith),
    rem_of_mem (by linarith) (by linarith)]
  ring

/-! ## To rgb -/

theorem sextant_eq (x : ℚ) : sextant x = .ok (
      if x < 1 then 0
      else if x < 2 then 1
      else if x < 3 then 2
      else if x < 4 then 3
      else if x < 5 then 4
      else 5) := if_pos (by simp)

/-- The channel between the full and the empty one rises through one sixth of the wheel and falls
through the next. -/
theorem rise_or_fall (x : ℚ) (k : ℤ) :
    (2 * k ≤ x → x < 2 * k + 1 → 1 - magnitude (rem x 2 - 1) = x - 2 * k) ∧
    (2 * k + 1 ≤ x → x < 2 * k + 2 → 1 - magnitude (rem x 2 - 1) = 2 * k + 2 - x) := by
  have hrem : 2 * k ≤ x → x < 2 * k + 2 → rem x 2 = x - 2 * k := by
    intro h0 h2
    have h := rem_add_mul (x := x - 2 * k) (y := 2) (by linarith) (by linarith) k
    rwa [sub_add_cancel] at h
  rw [magnitude_eq_abs]
  constructor
  · intro h0 h1
    rw [hrem h0 (by linarith), abs_of_nonpos (by linarith)]
    ring
  · intro h1 h2
    rw [hrem (by linarith) h2, abs_of_nonneg (by linarith)]
    ring

/-- What the way from hsl to rgb picks by the sixth of the wheel is a pure color, spread. -/
theorem map_sextantChannels {x : ℚ} (hx : 0 ≤ x ∧ x < 6) (chroma base : ℚ) :
    (sextantChannels chroma (chroma * (1 - magnitude (rem x 2 - 1)))
      (if x < 1 then 0
      else if x < 2 then 1
      else if x < 3 then 2
      else if x < 4 then 3
      else if x < 5 then 4
      else 5)).map (· + base) = (pureColor x).spread chroma base := by
  obtain ⟨h0, h6⟩ := hx
  obtain ⟨hrise₀, hfall₀⟩ := rise_or_fall x 0
  obtain ⟨hrise₁, hfall₁⟩ := rise_or_fall x 1
  obtain ⟨hrise₂, hfall₂⟩ := rise_or_fall x 2
  push_cast at *
  have hchannels : ∀ y : ℚ, chroma * y + base = y * chroma + base := fun y => by ring
  unfold pureColor
  split_ifs
  · rw [hrise₀ (by linarith) (by linarith), sextantChannels]
    simp [Triple.map, Triple.spread, hchannels]
  · rw [hfall₀ (by linarith) (by linarith), sextantChannels]
    simp [Triple.map, Triple.spread, hchannels]
  · rw [hrise₁ (by linarith) (by linarith), sextantChannels]
    simp [Triple.map, Triple.spread, hchannels]
  · rw [hfall₁ (by linarith) (by linarith), sextantChannels]
    norm_num [Triple.map, Triple.spread, hchannels]
  · rw [hrise₂ (by linarith) (by linarith), sextantChannels]
    norm_num [Triple.map, Triple.spread, hchannels]
  · rw [hfall₂ (by linarith) (by linarith), sextantChannels]
    norm_num [Triple.map, Triple.spread, hchannels]

/-- The hue of hsl or hwb channels in sixths of the wheel. -/
def sixthsOfHue (hue : ℚ) : ℚ :=
  rem hue 360 / 60

theorem sixthsOfHue_mem (hue : ℚ) : 0 ≤ sixthsOfHue hue ∧ sixthsOfHue hue < 6 := by
  have h0 := rem_nonneg (y := 360) (by norm_num) hue
  have h1 := rem_lt (y := 360) (by norm_num) hue
  rw [sixthsOfHue]
  constructor <;> linarith

theorem sixty_mul_sixthsOfHue (hue : ℚ) : 60 * sixthsOfHue hue ≡ hue [PMOD 360] := by
  rw [sixthsOfHue, mul_div_cancel₀ _ (by norm_num)]
  exact rem_modEq hue 360

theorem sixthsOfHue_of_mem {x : ℚ} (hx : 0 ≤ x ∧ x < 6) : sixthsOfHue (60 * x) = x := by
  rw [sixthsOfHue, rem_of_mem (by linarith) (by linarith)]
  ring

/-- The chroma of a color with a saturation and a lightness. -/
def chromaOfHsl (saturation lightness : ℚ) : ℚ :=
  (1 - |2 * lightness - 1|) * saturation

theorem rgbOfHsl_eq (hsl : Triple ℚ) :
    let chroma := chromaOfHsl (clamp hsl.second) (clamp hsl.third)
    rgbOfHsl hsl =
      .ok ((pureColor (sixthsOfHue hsl.first)).spread chroma (clamp hsl.third - chroma / 2)) := by
  intro chroma
  rw [rgbOfHsl, sextant_eq]
  refine congrArg Except.ok (Eq.trans ?_ (map_sextantChannels (sixthsOfHue_mem hsl.first) ..))
  rw [show chroma = chromaOfHsl _ _ from rfl, chromaOfHsl, ← magnitude_eq_abs]
  rfl

/-- Chroma fits between the lightness and the nearer end of the unit interval. -/
theorem chromaOfHsl_mem {s l : ℚ} (hs : 0 ≤ s ∧ s ≤ 1) (hl : 0 ≤ l ∧ l ≤ 1) :
    0 ≤ chromaOfHsl s l ∧ 0 ≤ l - chromaOfHsl s l / 2 ∧
      chromaOfHsl s l + (l - chromaOfHsl s l / 2) ≤ 1 := by
  have habs : |2 * l - 1| ≤ 1 := abs_le.mpr ⟨by linarith, by linarith⟩
  have hfirst : 2 * l - 1 ≤ |2 * l - 1| := le_abs_self _
  have hsecond : -(2 * l - 1) ≤ |2 * l - 1| := neg_le_abs _
  unfold chromaOfHsl
  refine ⟨mul_nonneg (by linarith) hs.1, by nlinarith, by nlinarith⟩

theorem rgbOfHwb_eq_of_lt {hwb : Triple ℚ} (h : clamp hwb.second + clamp hwb.third < 1) :
    rgbOfHwb hwb = .ok ((pureColor (sixthsOfHue hwb.first)).spread
      (1 - clamp hwb.second - clamp hwb.third) (clamp hwb.second)) := by
  have hpure : rgbOfHsl ⟨hwb.first, 1, 0.5⟩ = .ok (pureColor (sixthsOfHue hwb.first)) := by
    have hone : clamp (1 : ℚ) = 1 := clamp_of_mem zero_le_one le_rfl
    have hhalf : clamp (0.5 : ℚ) = 1 / 2 := by rw [clamp_of_mem] <;> norm_num
    rw [rgbOfHsl_eq]
    dsimp only
    rw [hone, hhalf]
    norm_num [chromaOfHsl, Triple.spread, Triple.map]
  rw [rgbOfHwb, if_neg (not_le.mpr h), hpure]
  rfl

/-- Whiteness and blackness that fill the color up make a gray. -/
theorem rgbOfHwb_eq_of_le {hwb : Triple ℚ} (h : 1 ≤ clamp hwb.second + clamp hwb.third) :
    rgbOfHwb hwb =
      .ok (.replicate (clamp hwb.second / (clamp hwb.second + clamp hwb.third))) := by
  rw [rgbOfHwb, if_pos h]
  rfl

/-- An interval inside of the unit interval. -/
structure InnerInterval (chroma base : ℚ) : Prop where
  chroma_nonneg : 0 ≤ chroma
  base_nonneg : 0 ≤ base
  top_le_one : chroma + base ≤ 1

/-- Every color of hsl is a pure color, spread over some part of the unit interval. -/
theorem exists_rgbOfHsl (hsl : Triple ℚ) : ∃ chroma base, InnerInterval chroma base ∧
    rgbOfHsl hsl = .ok ((pureColor (sixthsOfHue hsl.first)).spread chroma base) := by
  obtain ⟨h0, h1, h2⟩ := chromaOfHsl_mem (s := clamp hsl.second) (l := clamp hsl.third)
    ⟨clamp_nonneg _, clamp_le_one _⟩ ⟨clamp_nonneg _, clamp_le_one _⟩
  exact ⟨_, _, ⟨h0, h1, h2⟩, rgbOfHsl_eq hsl⟩

theorem exists_rgbOfHwb (hwb : Triple ℚ) : ∃ chroma base, InnerInterval chroma base ∧
    rgbOfHwb hwb = .ok ((pureColor (sixthsOfHue hwb.first)).spread chroma base) := by
  have hw := clamp_nonneg hwb.second
  have hb := clamp_nonneg hwb.third
  by_cases h : 1 ≤ clamp hwb.second + clamp hwb.third
  · refine ⟨0, clamp hwb.second / (clamp hwb.second + clamp hwb.third), ⟨le_rfl, ?_, ?_⟩, ?_⟩
    · positivity
    · rw [zero_add]
      exact div_le_one_of_le₀ (by linarith) (by linarith)
    · rw [rgbOfHwb_eq_of_le h, Triple.spread_zero]
  · exact ⟨_, _, ⟨by linarith, hw, by linarith⟩, rgbOfHwb_eq_of_lt (not_le.mp h)⟩

/-! ## From rgb -/

/-- Only black and white leave no room for chroma. -/
theorem room_pos {t : Triple ℚ} (ht : t.InUnit) (h : t.smallest < t.largest) :
    0 < 1 - |2 * ((t.largest + t.smallest) / 2) - 1| := by
  have h0 := ht.smallest_nonneg
  have h1 := ht.largest_le_one
  have habs : |2 * ((t.largest + t.smallest) / 2) - 1| < 1 := abs_lt.mpr ⟨by linarith, by linarith⟩
  linarith

/-- The saturation of channels in the unit interval. -/
def saturationOfRgb (t : Triple ℚ) : ℚ :=
  if t.largest - t.smallest = 0 then 0
  else (t.largest - t.smallest) / (1 - |2 * ((t.largest + t.smallest) / 2) - 1|)

/-- Going to hsl never divides by zero. -/
theorem hslOfRgb_eq (kept : ℚ) (t : Triple ℚ) :
    let u := t.map clamp
    hslOfRgb kept t =
      .ok ⟨hueOfRgb kept u, saturationOfRgb u, (u.largest + u.smallest) / 2⟩ := by
  intro u
  rw [hslOfRgb, saturationOfRgb]
  dsimp only
  simp only [beq_iff_eq]
  split_ifs with h
  · rfl
  · have hlt := lt_of_le_of_ne u.smallest_le_largest fun he => h (by linarith)
    rw [magnitude_eq_abs, divide_eq (room_pos (Triple.inUnit_map_clamp t) hlt).ne']
    rfl

theorem saturationOfRgb_mem {t : Triple ℚ} (ht : t.InUnit) :
    0 ≤ saturationOfRgb t ∧ saturationOfRgb t ≤ 1 := by
  have h0 := ht.smallest_nonneg
  have h1 := ht.largest_le_one
  have hle := t.smallest_le_largest
  unfold saturationOfRgb
  split_ifs with h
  · exact ⟨le_rfl, zero_le_one⟩
  · have hroom := room_pos ht (lt_of_le_of_ne hle fun he => h (by linarith))
    refine ⟨div_nonneg (by linarith) hroom.le, (div_le_one hroom).mpr ?_⟩
    have habs : |2 * ((t.largest + t.smallest) / 2) - 1| ≤ 1 - (t.largest - t.smallest) :=
      abs_le.mpr ⟨by linarith, by linarith⟩
    linarith

theorem chromaOfHsl_saturationOfRgb {t : Triple ℚ} (ht : t.InUnit) :
    chromaOfHsl (saturationOfRgb t) ((t.largest + t.smallest) / 2) = t.largest - t.smallest := by
  unfold chromaOfHsl saturationOfRgb
  split_ifs with h
  · rw [mul_zero, h]
  · have hroom := room_pos ht (lt_of_le_of_ne t.smallest_le_largest fun he => h (by linarith))
    exact mul_div_cancel₀ _ hroom.ne'

/-- The pure color at the hue of rgb channels, spread as they are. -/
theorem spread_hueOfRgb (kept : ℚ) {t : Triple ℚ} (ht : t.InUnit) :
    (pureColor (sixthsOfHue (hueOfRgb kept t))).spread (t.largest - t.smallest) t.smallest = t := by
  rcases eq_or_lt_of_le t.smallest_le_largest with h | h
  · rw [← h, sub_self, Triple.spread_zero]
    exact (Triple.eq_replicate_smallest h.symm).symm
  · obtain ⟨x, hx, htx⟩ := Triple.exists_spread_pureColor h
    have hhue : hueOfRgb kept t = 60 * x := by
      rw [htx]
      have h0 := ht.smallest_nonneg
      have h1 := ht.largest_le_one
      exact hueOfRgb_spread kept hx (by linarith) h0 (by linarith)
    rw [hhue, sixthsOfHue_of_mem hx, ← htx]

/-- Channels in the unit interval come back from hsl. -/
theorem rgbOfHsl_hslOfRgb (kept : ℚ) {t : Triple ℚ} (ht : t.InUnit) :
    (hslOfRgb kept t >>= rgbOfHsl) = .ok t := by
  have hs := saturationOfRgb_mem ht
  have h0 := ht.smallest_nonneg
  have h1 := ht.largest_le_one
  have hle := t.smallest_le_largest
  rw [hslOfRgb_eq, ht.map_clamp]
  change rgbOfHsl _ = _
  rw [rgbOfHsl_eq]
  dsimp only
  rw [clamp_of_mem hs.1 hs.2, clamp_of_mem (by linarith) (by linarith),
    chromaOfHsl_saturationOfRgb ht]
  have hbase : (t.largest + t.smallest) / 2 - (t.largest - t.smallest) / 2 = t.smallest := by ring
  rw [hbase, spread_hueOfRgb kept ht]

/-- Channels in the unit interval come back from hwb. -/
theorem rgbOfHwb_hwbOfRgb (kept : ℚ) {t : Triple ℚ} (ht : t.InUnit) :
    rgbOfHwb (hwbOfRgb kept t) = .ok t := by
  have h0 := ht.smallest_nonneg
  have h1 := ht.largest_le_one
  have hle := t.smallest_le_largest
  have hwb : hwbOfRgb kept t = ⟨hueOfRgb kept t, t.smallest, 1 - t.largest⟩ := by
    rw [hwbOfRgb, ht.map_clamp]
  have hw : clamp t.smallest = t.smallest := clamp_of_mem h0 (by linarith)
  have hb : clamp (1 - t.largest) = 1 - t.largest := clamp_of_mem (by linarith) (by linarith)
  rw [hwb]
  rcases eq_or_lt_of_le hle with h | h
  · rw [rgbOfHwb_eq_of_le (by dsimp only; rw [hw, hb]; linarith)]
    dsimp only
    rw [hw, hb, h, add_sub_cancel, div_one, ← h, ← Triple.eq_replicate_smallest h.symm]
  · rw [rgbOfHwb_eq_of_lt (by dsimp only; rw [hw, hb]; linarith)]
    dsimp only
    have hchroma : 1 - t.smallest - (1 - t.largest) = t.largest - t.smallest := by ring
    rw [hw, hb, hchroma, spread_hueOfRgb kept ht]

end ColorMod
