import ColorMod.Color.Mixing
import ColorMod.Proofs.Conversions
import ColorMod.Proofs.SpaceChanges

/-!
# Mixtures in exact arithmetic

A mix stands between two colors, channel by channel in one space.  At share 0 it has the rgb
channels of the first color and at share 1 those of the second, whatever spaces the two are stored
in, and seen from the second color it is the mix at the share that is left.

* `mix_of_inSpace`: a mix, given both colors in the space of the mix.
* `Sound.exists_inSpace_eq`: a color in another space has the same rgb channels.
* `blend_between`: the ends of a mix, what lies between them, and both directions.
* `shade_tint_channels`: mixes with black and with white.
-/

namespace ColorMod

open Scalar

/-! ## Between two numbers -/

namespace Color

section

variable (x y z : ℚ)

@[simp] theorem between_zero : between 0 x y = x := by
  unfold between
  ring

@[simp] theorem between_one : between 1 x y = y := by
  unfold between
  ring

@[simp] theorem between_self (share : ℚ) : between share x x = x := by
  unfold between
  ring

/-- The way back. -/
theorem between_one_sub (share : ℚ) : between (1 - share) y x = between share x y := by
  unfold between
  ring

/-- To go on toward the same goal is to go there at once. -/
theorem between_between (p q : ℚ) : between q (between p x z) z = between (p + q - p * q) x z := by
  unfold between
  ring

variable {x y}

theorem between_mem {share : ℚ} (hshare : 0 ≤ share ∧ share ≤ 1) (hx : 0 ≤ x ∧ x ≤ 1)
    (hy : 0 ≤ y ∧ y ≤ 1) : 0 ≤ between share x y ∧ between share x y ≤ 1 := by
  obtain ⟨h0, h1⟩ := hshare
  have hrest : 0 ≤ 1 - share := by linarith
  unfold between
  constructor
  · exact add_nonneg (mul_nonneg hx.1 hrest) (mul_nonneg hy.1 h0)
  · calc x * (1 - share) + y * share ≤ 1 * (1 - share) + 1 * share := by
          gcongr
          · exact hx.2
          · exact hy.2
      _ = 1 := by ring

end

end Color

/-! ## Between two colors -/

namespace Triple

variable {s t : Triple ℚ}

theorem InUnit.zipWith_between (hs : s.InUnit) (ht : t.InUnit) {share : ℚ}
    (hshare : 0 ≤ share ∧ share ≤ 1) : (s.zipWith (Color.between share) t).InUnit :=
  ⟨Color.between_mem hshare hs.first ht.first, Color.between_mem hshare hs.second ht.second,
    Color.between_mem hshare hs.third ht.third⟩

@[simp] theorem zipWith_between_zero : s.zipWith (Color.between 0) t = s := by
  simp only [zipWith, Color.between_zero]

@[simp] theorem zipWith_between_one : s.zipWith (Color.between 1) t = t := by
  simp only [zipWith, Color.between_one]

@[simp] theorem zipWith_between_self (share : ℚ) : s.zipWith (Color.between share) s = s := by
  simp only [zipWith, Color.between_self]

end Triple

namespace Color

section

variable {α : Type} [Scalar α] {c other start goal : Color α} {space : ColorSpace}

/-- The rgb channels of a color do not depend on its alpha or on the hue that it remembers. -/
theorem rgb_ofChannels (hspace : c.space = space) (alpha kept : α) :
    (ofChannels space c.channels alpha kept).rgb = c.rgb := by
  subst hspace
  obtain ⟨space, channels, alpha, hue⟩ := c
  cases space <;> rfl

theorem mix_of_inSpace (hstart : c.inSpace space = .ok start)
    (hgoal : other.inSpace space = .ok goal) (share : α) (mixAlpha : Bool) :
    c.mix other share space mixAlpha =
      .ok (ofChannels space (start.channels.zipWith (between share) goal.channels)
        (if mixAlpha then between share c.alpha other.alpha else c.alpha) c.hue) := by
  rw [mix, hstart, hgoal]
  rfl

end

/-- A color in another space is stored there and has the same rgb channels. -/
theorem Sound.exists_inSpace_eq {c : Color ℚ} (h : c.Sound) (space : ColorSpace) :
    ∃ d, c.inSpace space = .ok d ∧ d.Sound ∧ d.space = space ∧ d.rgb = c.rgb := by
  obtain ⟨d, hd, hsound, halike⟩ := h.inSpace space
  exact ⟨d, hd, hsound, space_of_inSpace hd, halike.rgb⟩

/-- A mix of rgb channels in the unit interval has such rgb channels, and so has any other mix. -/
theorem exists_rgb_mixed {space : ColorSpace} {s t : Triple ℚ} (hs : space = .rgb → s.InUnit)
    (ht : space = .rgb → t.InUnit) {share : ℚ} (hshare : 0 ≤ share ∧ share ≤ 1) (alpha kept : ℚ) :
    ∃ u, (ofChannels space (s.zipWith (between share) t) alpha kept).rgb = .ok u ∧ u.InUnit := by
  by_cases hspace : space = .rgb
  · subst hspace
    exact ⟨_, rfl, (hs rfl).zipWith_between (ht rfl) hshare⟩
  · obtain ⟨u, hu, hunit⟩ := exists_rgb (ofChannels space (s.zipWith (between share) t) alpha kept)
    exact ⟨u, hu, hunit hspace⟩

/-- A blend has the rgb channels of the one color at share 0 and of the other at share 1.  At any
share between them its rgb channels lie in the unit interval, its stored channels are those of the
blend the other way round, and a blend with alpha is the same but for its alpha, which goes evenly
from the one alpha to the other. -/
theorem blend_between {space space' : ColorSpace} {channels channels' : Triple ℚ}
    (hrgb : space = .rgb → channels.InUnit) (hrgb' : space' = .rgb → channels'.InUnit)
    (alpha alpha' kept kept' : ℚ) (target : ColorSpace) {share : ℚ}
    (hshare : 0 ≤ share ∧ share ≤ 1) :
    let c := ofChannels space channels alpha kept
    let other := ofChannels space' channels' alpha' kept'
    (∃ d t, c.blend other 0 target = .ok d ∧ c.rgb = .ok t ∧ d.rgb = .ok t) ∧
    (∃ d t, c.blend other 1 target = .ok d ∧ other.rgb = .ok t ∧ d.rgb = .ok t) ∧
    ∃ d back faded t, c.blend other share target = .ok d ∧ d.rgb = .ok t ∧ t.InUnit ∧
      d.space = target ∧ d.alpha = alpha ∧
      other.blend c (1 - share) target = .ok back ∧ back.space = target ∧
      back.channels = d.channels ∧
      c.blendAlpha other share target = .ok faded ∧ faded.space = target ∧
      faded.channels = d.channels ∧ faded.alpha = alpha + (alpha' - alpha) * share := by
  intro c other
  have hc : c.Sound := sound_ofChannels hrgb alpha kept
  have hother : other.Sound := sound_ofChannels hrgb' alpha' kept'
  obtain ⟨start, hstart, hsound, hspace, heq⟩ := hc.exists_inSpace_eq target
  obtain ⟨goal, hgoal, hsound', hspace', heq'⟩ := hother.exists_inSpace_eq target
  obtain ⟨s, hs, -⟩ := hc.exists_rgb
  obtain ⟨t, ht, -⟩ := hother.exists_rgb
  obtain ⟨u, hu, hunit⟩ := exists_rgb_mixed (fun h => hsound.inUnit (hspace.trans h))
    (fun h => hsound'.inUnit (hspace'.trans h)) hshare alpha c.hue
  have hback : goal.channels.zipWith (between (1 - share)) start.channels =
      start.channels.zipWith (between share) goal.channels := by
    simp only [Triple.zipWith, between_one_sub]
  refine ⟨⟨_, s, mix_of_inSpace hstart hgoal 0 false, hs, ?_⟩,
    ⟨_, t, mix_of_inSpace hstart hgoal 1 false, ht, ?_⟩,
    _, _, _, u, mix_of_inSpace hstart hgoal share false, hu, hunit, rfl, rfl,
    mix_of_inSpace hgoal hstart (1 - share) false, rfl, hback,
    mix_of_inSpace hstart hgoal share true, rfl, rfl, ?_⟩
  · rw [Triple.zipWith_between_zero, rgb_ofChannels hspace, heq, hs]
  · rw [Triple.zipWith_between_one, rgb_ofChannels hspace', heq', ht]
  · change between share alpha alpha' = _
    unfold between
    ring

/-- A gray in rgb and an overfull color of hwb, a third of the way from the one hue to the other. -/
theorem blend_between_grays :
    let gray : Color ℚ := ofChannels .rgb (.replicate 0.5) 1 210
    let overfull : Color ℚ := ofChannels .hwb ⟨30, 0.8, 0.9⟩ 0.25
    (∃ d, gray.blend overfull 0 .hsl = .ok d ∧ d.rgb = .ok (.replicate 0.5)) ∧
    ∃ d back, gray.blend overfull (1 / 3) .hsl = .ok d ∧
      overfull.blend gray (2 / 3) .hsl = .ok back ∧ back.channels = d.channels ∧
      d.channels = ⟨150, 0, 25 / 51⟩ := by
  intro gray overfull
  have hunit : (Triple.replicate (0.5 : ℚ)).InUnit := by
    constructor <;> norm_num [Triple.replicate]
  obtain ⟨⟨d₀, t, hd₀, ht, hrgb⟩, -, d, back, -, -, hd, -, -, -, -, hback, -, hsame, -⟩ :=
    @blend_between .rgb .hwb (.replicate 0.5) ⟨30, 0.8, 0.9⟩ (fun _ => hunit)
      (fun h => absurd h (by decide)) 1 0.25 210 0 .hsl (1 / 3) (by norm_num)
  cases ht
  have hchannels : (gray.blend overfull (1 / 3) .hsl).toOption.map Color.channels =
      some ⟨150, 0, 25 / 51⟩ := by decide +kernel
  rw [show gray.blend overfull (1 / 3) .hsl = .ok d from hd] at hchannels
  have hshare : (1 - 1 / 3 : ℚ) = 2 / 3 := by norm_num
  rw [hshare] at hback
  exact ⟨⟨d₀, hd₀, hrgb⟩, d, back, hd, hback, hsame, Option.some.inj hchannels⟩

end Color

/-! ## Toward black and toward white -/

theorem rgbOfHwb_hwbOfRgb_eq_clamp (kept : ℚ) (t : Triple ℚ) :
    rgbOfHwb (hwbOfRgb kept t) = .ok (t.map clamp) := by
  have hunit := Triple.inUnit_map_clamp t
  have hclamped : hwbOfRgb kept t = hwbOfRgb kept (t.map clamp) := by
    unfold hwbOfRgb
    rw [hunit.map_clamp]
  rw [hclamped, rgbOfHwb_hwbOfRgb kept hunit]

namespace Color

/-- In hwb a color has its rgb channels, clamped. -/
theorem exists_inSpace_hwb (c : Color ℚ) : ∃ t start, c.rgb = .ok t ∧ c.inSpace .hwb = .ok start ∧
    start.space = .hwb ∧ start.alpha = c.alpha ∧ start.rgb = .ok (t.map clamp) := by
  obtain ⟨t, ht, hunit⟩ := c.exists_rgb
  by_cases hspace : .hwb = c.space
  · refine ⟨t, c, ht, if_pos hspace, hspace.symm, rfl, ?_⟩
    rw [(hunit (by rw [← hspace]; decide)).map_clamp, ht]
  · have hhwb : c.channelsIn .hwb = .ok (hwbOfRgb c.hue t) := by
      rw [channelsIn, hwb_of_ne hspace, ht]
      rfl
    exact ⟨t, _, ht, inSpace_of_ne hspace hhwb, rfl, rfl, rgbOfHwb_hwbOfRgb_eq_clamp c.hue t⟩

section

variable {goal : Color ℚ} {gray : ℚ} (hspace : goal.space = .hwb)
  (hgoal : goal.rgb = .ok (.replicate gray))

include hspace hgoal

/-- A color that goes through hwb toward a gray comes to a color in rgb. -/
theorem exists_toward_gray (c : Color ℚ) (share : ℚ) : ∃ t d, c.rgb = .ok t ∧
    (c.inSpace .hwb >>= (·.blend goal share)) = .ok d ∧ d.space = .rgb ∧ d.alpha = c.alpha ∧
    d.channels = t.map fun v => between share (clamp v) gray := by
  obtain ⟨t, start, ht, hstart, hhwb, halpha, hrgb⟩ := c.exists_inSpace_hwb
  have hstart' : start.inSpace .rgb = _ := inSpace_of_ne (by rw [hhwb]; decide) hrgb
  have hgoal' : goal.inSpace .rgb = _ := inSpace_of_ne (by rw [hspace]; decide) hgoal
  have hmix := mix_of_inSpace hstart' hgoal' share false
  rw [hstart]
  exact ⟨t, _, ht, hmix, rfl, halpha, rfl⟩

/-- It stays in the unit interval, and to go on toward the gray is to go there at once. -/
theorem exists_toward_gray_twice (hgray : 0 ≤ gray ∧ gray ≤ 1) (c : Color ℚ) {p q : ℚ}
    (hp : 0 ≤ p ∧ p ≤ 1) : ∃ t d e e', c.rgb = .ok t ∧
      (c.inSpace .hwb >>= (·.blend goal p)) = .ok d ∧ d.space = .rgb ∧ d.alpha = c.alpha ∧
      d.rgb = .ok (t.map fun v => between p (clamp v) gray) ∧ d.channels.InUnit ∧
      (d.inSpace .hwb >>= (·.blend goal q)) = .ok e ∧
      (c.inSpace .hwb >>= (·.blend goal (p + q - p * q))) = .ok e' ∧ e.rgb = e'.rgb := by
  obtain ⟨t, d, ht, hd, hrgb, halpha, hchannels⟩ := exists_toward_gray hspace hgoal c p
  obtain ⟨u, e, hu, he, hrgb', -, hchannels'⟩ := exists_toward_gray hspace hgoal d q
  obtain ⟨t', e', ht', he', hrgb'', -, hchannels''⟩ :=
    exists_toward_gray hspace hgoal c (p + q - p * q)
  cases ht.symm.trans ht'
  have hown (f : Color ℚ) (hf : f.space = .rgb) : f.rgb = .ok f.channels := by
    rw [Color.rgb, hf]
  have hmem (v : ℚ) : 0 ≤ between p (clamp v) gray ∧ between p (clamp v) gray ≤ 1 :=
    between_mem hp ⟨clamp_nonneg v, clamp_le_one v⟩ hgray
  have hunit : d.channels.InUnit := by
    rw [hchannels]
    exact ⟨hmem _, hmem _, hmem _⟩
  obtain rfl : d.channels = u := Except.ok.inj ((hown d hrgb).symm.trans hu)
  refine ⟨t, d, e, e', ht, hd, hrgb, halpha, by rw [hown d hrgb, hchannels], hunit, he, he', ?_⟩
  rw [hown e hrgb', hown e' hrgb'', hchannels', hchannels'', hchannels]
  simp only [Triple.map, clamp_of_mem (hmem _).1 (hmem _).2, between_between]

end

/-- Shades and tints of a color are rgb colors of its alpha.  Their channels are those of the color,
clamped, with the share taken away or taken of what is left to one.  They lie in the unit interval,
and a shade of a shade is the shade of both shares together, likewise for tints. -/
theorem shade_tint_channels (c : Color ℚ) {p : ℚ} (hp : 0 ≤ p ∧ p ≤ 1) (q : ℚ) :
    ∃ t, c.rgb = .ok t ∧
      (∃ d e e', c.shade p = .ok d ∧ d.space = .rgb ∧ d.alpha = c.alpha ∧
        d.rgb = .ok ((t.map clamp).map fun v => (1 - p) * v) ∧ d.channels.InUnit ∧
        d.shade q = .ok e ∧ c.shade (p + q - p * q) = .ok e' ∧ e.rgb = e'.rgb) ∧
      ∃ d e e', c.tint p = .ok d ∧ d.space = .rgb ∧ d.alpha = c.alpha ∧
        d.rgb = .ok ((t.map clamp).map fun v => v + (1 - v) * p) ∧ d.channels.InUnit ∧
        d.tint q = .ok e ∧ c.tint (p + q - p * q) = .ok e' ∧ e.rgb = e'.rgb := by
  have hblack : (ofChannels .hwb ⟨0, 0, 1⟩ 1 : Color ℚ).rgb = .ok (.replicate 0) := by
    decide +kernel
  have hwhite : (ofChannels .hwb ⟨0, 1, 0⟩ 1 : Color ℚ).rgb = .ok (.replicate 1) := by
    decide +kernel
  obtain ⟨t, d, e, e', ht, hd, hspace, halpha, hrgb, hunit, he, he', hsame⟩ :=
    exists_toward_gray_twice rfl hblack ⟨le_rfl, zero_le_one⟩ c (q := q) hp
  obtain ⟨t', f, g, g', ht', hf, hspace', halpha', hrgb', hunit', hg, hg', hsame'⟩ :=
    exists_toward_gray_twice rfl hwhite ⟨zero_le_one, le_rfl⟩ c (q := q) hp
  cases ht.symm.trans ht'
  have hshade (v : ℚ) : between p v 0 = (1 - p) * v := by
    unfold between
    ring
  have htint (v : ℚ) : between p v 1 = v + (1 - v) * p := by
    unfold between
    ring
  simp only [hshade] at hrgb
  simp only [htint] at hrgb'
  exact ⟨t, ht, ⟨d, e, e', hd, hspace, halpha, hrgb, hunit, he, he', hsame⟩,
    f, g, g', hf, hspace', halpha', hrgb', hunit', hg, hg', hsame'⟩

/-- An rgb color with one channel above the unit interval and one below it. -/
theorem shade_tint_beyond :
    let c : Color ℚ := ofChannels .rgb ⟨3, -2, 0.25⟩ 0.5
    (∃ d, c.shade 0.2 = .ok d ∧ d.rgb = .ok ⟨0.8, 0, 0.2⟩) ∧
    ∃ d e e', c.tint 0.2 = .ok d ∧ d.rgb = .ok ⟨1, 0.2, 0.4⟩ ∧
      d.tint 0.5 = .ok e ∧ c.tint 0.6 = .ok e' ∧ e.rgb = e'.rgb := by
  intro c
  obtain ⟨t, ht, ⟨d, -, -, hd, -, -, hrgb, -⟩, f, g, g', hf, -, -, hrgb', -, hg, hg', hsame⟩ :=
    shade_tint_channels c (p := 0.2) (by norm_num) 0.5
  obtain rfl : ⟨3, -2, 0.25⟩ = t := Except.ok.inj ht
  have hshade : ((⟨3, -2, 0.25⟩ : Triple ℚ).map clamp).map (fun v => (1 - 0.2) * v) =
      ⟨0.8, 0, 0.2⟩ := by decide +kernel
  have htint : ((⟨3, -2, 0.25⟩ : Triple ℚ).map clamp).map (fun v => v + (1 - v) * 0.2) =
      ⟨1, 0.2, 0.4⟩ := by decide +kernel
  have hboth : (0.2 + 0.5 - 0.2 * 0.5 : ℚ) = 0.6 := by norm_num
  rw [hboth] at hg'
  exact ⟨⟨d, hd, by rw [hrgb, hshade]⟩, f, g, g', hf, by rw [hrgb', htint], hg, hg', hsame⟩

end Color

end ColorMod
