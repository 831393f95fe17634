import ColorMod.Proofs.SpaceChanges
import ColorMod.Proofs.WrittenNodes

/-!
# Colors written with spaces and read back

In exact arithmetic a color that is written with spaces is read back as a color of the same space.
Nothing is lost but what lies past the tenth decimal place of a number.

* `ofText?_fixedText`: a printed number is read as the number rounded to ten places.
* `exists_channelsIn_of_inside`: the channels that are written are those of the unit interval and a
  hue of the first turn.
* `exists_reread_spaced`: the color that is read.
-/

namespace ColorMod

open Scalar Decimal Written

/-! ## Numbers -/

/-- A printed number is read as the number rounded to ten places. -/
theorem ofText?_fixedText {q : ℚ} (hq : 0 ≤ q) :
    (ofText? (fixedText 10 q) : Option ℚ) = some (roundPlaces 10 q) := by
  obtain ⟨coefficient, places, hparse, -, hvalue⟩ := Numeral.exists_parse?_fixedText hq
  have hnumeral : (ofNumeral ⟨false, coefficient, -places⟩ : ℚ) = roundPlaces 10 q := hvalue
  rw [ofText?, hparse, Option.bind_eq_bind, Option.bind_some, hnumeral]
  rfl

theorem percentage_nonneg (q : ℚ) : 0 ≤ clamp q * 100 :=
  mul_nonneg (clamp_nonneg q) (by norm_num)

instance : ClampsPlain ℚ where
  clamp q := ⟨clamp q, rfl, clamp_nonneg q⟩
  percentage q := ⟨clamp q * 100, rfl, percentage_nonneg q⟩
  byte_lt q := by
    have hlt : ⌊clamp q * 255 + 0.5⌋ < 256 := by
      have h1 := clamp_le_one q
      rw [Int.floor_lt]
      norm_num
      linarith
    change ⌊clamp q * 255 + 0.5⌋.toNat < 256
    omega
  isSome_ofDecimal _ _ := rfl

/-- The part of a number that is lost when it is printed and read. -/
theorem abs_roundPlaces_sub_lt (q : ℚ) : |roundPlaces 10 q - q| ≤ 1 / 10 ^ 10 := by
  refine (abs_roundPlaces_sub_le 10 q).trans ?_
  norm_num

theorem exists_percentageReads {x : ℚ} (h0 : 0 ≤ x) (h1 : x ≤ 1) :
    ∃ y, PercentageReads x y ∧ |y - x| ≤ 1 / 10 ^ 6 := by
  refine ⟨_, ⟨_, ofText?_fixedText (percentage_nonneg x), rfl⟩, ?_⟩
  rw [clamp_of_mem h0 h1]
  have habs := abs_le.mp (abs_roundPlaces_sub_lt (x * 100))
  rw [abs_le]
  constructor <;> linarith

theorem exists_hueReads {x : ℚ} (h0 : 0 ≤ x) (h1 : x < 360) :
    ∃ y, HueReads x y ∧ |y - x| ≤ 1 / 10 ^ 6 := by
  have hrem : rem x 360 = x := rem_of_mem h0 h1
  refine ⟨roundPlaces 10 x, ?_, ?_⟩
  · change ofText? (fixedText 10 (rem x 360)) = _
    rw [hrem]
    exact ofText?_fixedText h0
  · refine (abs_roundPlaces_sub_lt x).trans ?_
    norm_num

/-! ## Channels -/

/-- The channels, one by one, are at most `bound` apart. -/
structure Triple.Near (bound : ℚ) (t u : Triple ℚ) : Prop where
  first : |u.first - t.first| ≤ bound
  second : |u.second - t.second| ≤ bound
  third : |u.third - t.third| ≤ bound

theorem exists_channelsRead {space : ColorSpace} {t : Triple ℚ} (ht : t.Inside space)
    (hhue : space ≠ .rgb → 0 ≤ t.first ∧ t.first < 360) :
    ∃ u, ChannelsRead PercentageReads space t u ∧ t.Near (1 / 10 ^ 6) u := by
  cases space with
  | rgb =>
    obtain ⟨r, hr, hr'⟩ := exists_percentageReads ht.first.1 ht.first.2
    obtain ⟨g, hg, hg'⟩ := exists_percentageReads ht.second.1 ht.second.2
    obtain ⟨b, hb, hb'⟩ := exists_percentageReads ht.third.1 ht.third.2
    exact ⟨⟨r, g, b⟩, ⟨hr, hg, hb⟩, ⟨hr', hg', hb'⟩⟩
  | hsl =>
    obtain ⟨h, hh, hh'⟩ := exists_hueReads (hhue nofun).1 (hhue nofun).2
    obtain ⟨s, hs, hs'⟩ := exists_percentageReads ht.1.1 ht.1.2
    obtain ⟨l, hl, hl'⟩ := exists_percentageReads ht.2.1 ht.2.2
    exact ⟨⟨h, s, l⟩, ⟨hh, hs, hl⟩, ⟨hh', hs', hl'⟩⟩
  | hwb =>
    obtain ⟨h, hh, hh'⟩ := exists_hueReads (hhue nofun).1 (hhue nofun).2
    obtain ⟨w, hw, hw'⟩ := exists_percentageReads ht.1.1 ht.1.2
    obtain ⟨b, hb, hb'⟩ := exists_percentageReads ht.2.1 ht.2.2
    exact ⟨⟨h, w, b⟩, ⟨hh, hw, hb⟩, ⟨hh', hw', hb'⟩⟩

theorem hueOfRgb_mem {kept : ℚ} (h : 0 ≤ kept ∧ kept < 360) (t : Triple ℚ) :
    0 ≤ hueOfRgb kept t ∧ hueOfRgb kept t < 360 := by
  rw [hueOfRgb_eq]
  split_ifs
  · exact h
  · exact ⟨rem_nonneg (by norm_num) _, rem_lt (by norm_num) _⟩

/-- The channels of a color in any space, when its own lie inside of its space and its hue is one of
the first turn. -/
theorem Color.exists_channelsIn_of_inside {c : Color ℚ} (hc : c.Sound)
    (hinside : c.channels.Inside c.space) (hhue : 0 ≤ c.hue ∧ c.hue < 360) (target : ColorSpace) :
    ∃ t, c.channelsIn target = .ok t ∧ t.Inside target ∧
      (target ≠ .rgb → 0 ≤ t.first ∧ t.first < 360) := by
  by_cases htarget : target = c.space
  · subst htarget
    exact ⟨c.channels, c.channelsIn_space, hinside, fun hne => by rwa [hc.first_eq hne]⟩
  · obtain ⟨t, ht, hinside'⟩ := c.exists_channelsIn htarget
    refine ⟨t, ht, hinside', fun hne => ?_⟩
    obtain ⟨u, hu, -⟩ := c.exists_rgb
    cases target with
    | rgb => exact absurd rfl hne
    | hsl =>
      rw [channelsIn, hsl_of_ne htarget, hu] at ht
      cases (hslOfRgb_eq c.hue u).symm.trans ht
      exact hueOfRgb_mem hhue _
    | hwb =>
      rw [channelsIn, hwb_of_ne htarget, hu] at ht
      cases ht
      exact hueOfRgb_mem hhue _

/-! ## Colors -/

/-- The format that writes a color in a space, with spaces. -/
def ColorSpace.spacedFormat : ColorSpace → ColorFormat
  | .rgb => .rgb
  | .hsl => .hsl
  | .hwb => .hwb

theorem toCss_spacedFormat {c : Color ℚ} {space : ColorSpace} {t : Triple ℚ}
    (ht : c.channelsIn space = .ok t) :
    c.toCss space.spacedFormat = .ok (Layout.text space t c.alpha .spaces) := by
  cases space with
  | rgb =>
    change Color.toCss.rgbSpaced c = _
    rw [Color.toCss.rgbSpaced, show c.rgb = .ok t from ht]
    rfl
  | hsl =>
    change Color.toCss.hslSpaced c = _
    rw [Color.toCss.hslSpaced, show c.hsl = .ok t from ht]
    rfl
  | hwb =>
    change Color.toCss.hwbSpaced c = _
    rw [Color.toCss.hwbSpaced, show c.hwb = .ok t from ht]
    rfl

/-- A color with channels inside of its space, with an alpha of the unit interval and with a hue of
the first turn is written as the text of a call, and the call resolves to a color of the space that
was written, at most a millionth away. -/
theorem exists_reread_spaced [LightCurve ℚ] {space : ColorSpace} {channels : Triple ℚ}
    {alpha kept : ℚ} (hchannels : channels.Inside space) (halpha : 0 ≤ alpha ∧ alpha ≤ 1)
    (hhue : 0 ≤ (Color.ofChannels space channels alpha kept).hue ∧
      (Color.ofChannels space channels alpha kept).hue < 360) (target : ColorSpace) :
    let c := Color.ofChannels space channels alpha kept
    ∃ text t d, c.channelsIn target = .ok t ∧ c.toCss target.spacedFormat = .ok text ∧
      (spacedCall target t alpha).render = text ∧ Node.ofText text = spacedCall target t alpha ∧
      (∀ ctx : Context ℚ, ctx.tooDeep = false →
        resolveColor (spacedCall target t alpha) ctx = pure (.ok d)) ∧
      d.space = target ∧ t.Near (1 / 10 ^ 6) d.channels ∧ |d.alpha - alpha| ≤ 1 / 10 ^ 6 := by
  intro c
  have hsound : c.Sound := Color.sound_ofChannels (fun h => by subst h; exact hchannels) ..
  obtain ⟨t, ht, hinside, hfirst⟩ := Color.exists_channelsIn_of_inside hsound hchannels hhue target
  obtain ⟨u, hu, hnear⟩ := exists_channelsRead hinside hfirst
  have hclamp : clamp alpha = alpha := clamp_of_mem halpha.1 halpha.2
  have hrem : Plain (rem t.first 360) := ⟨_, rfl, rem_nonneg (by norm_num) _⟩
  obtain ⟨a, ha, hclose⟩ : ∃ a, Layout.spaces.AlphaRereads alpha a ∧ |a - alpha| ≤ 1 / 10 ^ 6 := by
    simp only [Layout.AlphaRereads, hclamp]
    split_ifs with hopaque
    · refine ⟨1, rfl, ?_⟩
      rw [le_antisymm halpha.2 hopaque, sub_self, abs_zero]
      norm_num
    · exact exists_percentageReads halpha.1 halpha.2
  exact ⟨_, t, .ofChannels target u a, ht, toCss_spacedFormat ht, render_spacedCall ..,
    ofText_spaces (fun _ => hrem) alpha, fun ctx => resolveColor_spacedCall ⟨hu, ha⟩, rfl, hnear,
    hclose⟩

/-- A color whose channels have no end in decimal notation.  How much light it gives off does not
matter. -/
theorem exists_reread_spaced_thirds :
    letI : LightCurve ℚ := ⟨id⟩
    ∃ d : Color ℚ,
      Color.toCss (.ofChannels .rgb ⟨1 / 3, 2 / 3, 1⟩ 0.5 : Color ℚ) .rgb =
        .ok "rgb(33.3333333333% 66.6666666667% 100% / 50%)" ∧
      (∀ ctx : Context ℚ, ctx.tooDeep = false →
        resolveColor (Node.ofText "rgb(33.3333333333% 66.6666666667% 100% / 50%)") ctx =
          pure (.ok d)) ∧
      d.space = .rgb ∧ Triple.Near (1 / 10 ^ 6) ⟨1 / 3, 2 / 3, 1⟩ d.channels ∧
      |d.alpha - 0.5| ≤ 1 / 10 ^ 6 := by
  let : LightCurve ℚ := ⟨id⟩
  have hchannels : Triple.Inside ⟨1 / 3, 2 / 3, 1⟩ .rgb := by constructor <;> norm_num
  have hhue : (Color.ofChannels .rgb ⟨1 / 3, 2 / 3, 1⟩ 0.5 0 : Color ℚ).hue = 210 := by
    decide +kernel
  obtain ⟨text, t, d, ht, htext, -, hnode, hcolor, hspace, hnear, halpha⟩ :=
    @exists_reread_spaced _ .rgb ⟨1 / 3, 2 / 3, 1⟩ 0.5 0 hchannels (by norm_num)
      (by rw [hhue]; norm_num) .rgb
  cases ht
  have hprinted : Color.toCss (.ofChannels .rgb ⟨1 / 3, 2 / 3, 1⟩ 0.5 : Color ℚ) .rgb =
      .ok "rgb(33.3333333333% 66.6666666667% 100% / 50%)" := by decide +kernel
  cases htext.symm.trans hprinted
  exact ⟨d, hprinted, fun ctx hdeep => by rw [hnode]; exact hcolor ctx hdeep, hspace, hnear, halpha⟩

end ColorMod
