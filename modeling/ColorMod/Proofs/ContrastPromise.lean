import ColorMod.Proofs.EqualColors
import ColorMod.Proofs.MonotoneRounding
import ColorMod.Proofs.ReadableContrast

/-!
# What contrast promises

Contrast goes to white from a color with light below a half and to black from any other one.  One of
the two can always be read on the color, but it need not be the one that contrast goes to: for light
between about 0.18 and 0.5 that is white, and black would be farther away in light.  So contrast at
share 0 can be read, and contrast at share 1 is the farther one of white and black, for exactly the
colors whose light is not in one of two bands (`contrast_keeps_iff`).  All is in doubles, for any
curve of light that leads from none to full (`UnitLight`), such as the curve of the standard with any
power that does.

* `toWhite_anti`, `toBlack_mono`: the ratios to white and to black, by light.
* `BandEnds`: what is computed at the ends of the bands.
* `unitLight_standardLight`: the curve of the standard.
* `readable_iff`, `farther_iff`: white for dark and black for light, outside of the bands.
* `exists_nearestReadable_double`: the search ends at a color that can be read.
-/

namespace ColorMod

open Scalar Double

/-! ## Ratios of lights -/

/-- What the ratio adds to a light is not tiny, and what comes of it is not large. -/
theorem below_margin : Below 0.03125 0.05 ∧ Below 0.05 (0 + 0.05) ∧ Below (1 + 0.05) 1000 ∧
    Below ((1 + 0.05) / 0.05) 1000 := by
  decide +kernel

section

variable {x y u v r s : Float}

theorem divide_of_below (h : Below 0.03125 y) : divide x y = .ok (x / y) := by
  refine if_neg fun hzero => ?_
  obtain ⟨p, q, hp, hq, -, hpq, -⟩ := h
  cases hp.symm.trans Below.exactValue?_least
  have hq0 : q = 0 := (beq_iff hq exactValue?_zero).mp hzero
  rw [hq0] at hpq
  exact absurd hpq (by norm_num)

theorem margin_below (hx : Below x 1) : Below (x + 0.05) (1 + 0.05) ∧ Below 0.05 (x + 0.05) := by
  obtain ⟨-, hleast, hsmall, -⟩ := below_margin
  have hbound := hx.add hleast.self hsmall
  exact ⟨hbound, hleast.trans (hx.zero.add hleast.self (hbound.trans hsmall))⟩

theorem larger_below (hx : Below x 1) (hy : Below y 1) : Below (larger x y) 1 := by
  have hself : larger (1 : Float) 1 = 1 := ite_self 1
  rw [← hself]
  exact hx.larger hy

theorem smaller_below (hx : Below x 1) (hy : Below y 1) : Below (smaller x y) 1 :=
  (hx.smaller_right hy).trans hy

/-- The ratio of two lights is a number. -/
theorem exists_contrastRatio_double (hx : Below x 1) (hy : Below y 1) :
    contrastRatio x y = .ok ((larger x y + 0.05) / (smaller x y + 0.05)) ∧
      Below ((larger x y + 0.05) / (smaller x y + 0.05)) 1000 := by
  obtain ⟨hlight, -⟩ := margin_below (larger_below hx hy)
  obtain ⟨-, hdark⟩ := margin_below (smaller_below hx hy)
  obtain ⟨hlarge, -, -, hsmall⟩ := below_margin
  exact ⟨divide_of_below (hlarge.trans hdark), (hlight.div hdark hlarge hsmall).trans hsmall⟩

theorem below_of_contrastRatio (hx : Below x 1) (hy : Below y 1) (h : contrastRatio x y = .ok r) :
    Below r 1000 := by
  obtain ⟨hratio, hnumber⟩ := exists_contrastRatio_double hx hy
  rw [← Except.ok.inj (hratio.symm.trans h)]
  exact hnumber

/-- The lighter one of two lights lighter, or the darker one darker, makes the ratio larger. -/
theorem contrastRatio_below (hx : Below x 1) (hy : Below y 1) (hu : Below u 1) (hv : Below v 1)
    (hlighter : Below (larger x y) (larger u v)) (hdarker : Below (smaller u v) (smaller x y))
    (hr : contrastRatio x y = .ok r) (hs : contrastRatio u v = .ok s) : Below r s := by
  obtain ⟨hr', -⟩ := exists_contrastRatio_double hx hy
  obtain ⟨hs', hsmall⟩ := exists_contrastRatio_double hu hv
  cases hr.symm.trans hr'
  cases hs.symm.trans hs'
  obtain ⟨hlarge, hmargin, hbound, -⟩ := below_margin
  obtain ⟨hlight, -⟩ := margin_below (larger_below hu hv)
  obtain ⟨hdark, -⟩ := margin_below (smaller_below hx hy)
  obtain ⟨-, hdivisor⟩ := margin_below (smaller_below hu hv)
  exact (hlighter.add hmargin.self (hlight.trans hbound)).div
    (hdarker.add hmargin.self (hdark.trans hbound)) (hlarge.trans hdivisor) hsmall

/-! ### Against white and black -/

/-- White is nearer in light to the lighter one. -/
theorem toWhite_anti (h : Below x y) (hy : Below y 1) (hr : contrastRatio x 1 = .ok r)
    (hs : contrastRatio y 1 = .ok s) : Below s r := by
  have hone : Below 1 1 := below_ofNat le_rfl (by decide)
  have hlighter := (larger_below hy hone).trans (h.larger_right hone)
  exact contrastRatio_below hy hone (h.trans hy) hone hlighter (h.smaller hone) hs hr

/-- Black is nearer in light to the darker one. -/
theorem toBlack_mono (h : Below x y) (hy : Below y 1) (hr : contrastRatio x 0 = .ok r)
    (hs : contrastRatio y 0 = .ok s) : Below r s := by
  have hzero : Below 0 1 := below_ofNat (by decide) (by decide)
  have hdarker := (hy.smaller_right hzero).trans (smaller_below (h.trans hy) hzero).zero
  exact contrastRatio_below (h.trans hy) hzero hy hzero (h.larger hzero.self) hdarker hr hs

/-! ### The bands -/

/-- What is computed at the ends of the two bands, for the last light below each of them, the first
light in it and the middle, where both of them end. -/
structure BandEnds : Prop where
  last_value :
    exactValue? 0.17912878474779204 = some (((6453794625931888 : ℤ) : ℚ) * 2 ^ (-55 : ℤ)) ∧
      exactValue? 0.17912878474779206 = some (((6453794625931888 : ℤ) + 1 : ℚ) * 2 ^ (-55 : ℤ))
  last_readable_value :
    exactValue? 0.18333333333333335 = some (((6605279453476728 : ℤ) : ℚ) * 2 ^ (-55 : ℤ)) ∧
      exactValue? 0.18333333333333338 = some (((6605279453476728 : ℤ) + 1 : ℚ) * 2 ^ (-55 : ℤ))
  last_light : Below 0.17912878474779204 0.18333333333333335
  middle_light : Below 0.18333333333333335 0.5 ∧ Below 0.5 1
  next_light : ¬Below 0.17912878474779206 0.17912878474779204
  next_faint_light : ¬Below 0.18333333333333338 0.18333333333333335
  last_toWhite : contrastRatio (0.17912878474779204 : Float) 1 = .ok 4.58257569495584
  last_toBlack : contrastRatio (0.17912878474779204 : Float) 0 = .ok 4.58257569495584
  next_toWhite : contrastRatio (0.17912878474779206 : Float) 1 = .ok 4.582575694955839
  next_toBlack : contrastRatio (0.17912878474779206 : Float) 0 = .ok 4.582575694955842
  next_nearer : ¬Below 4.582575694955842 4.582575694955839
  last_readable : contrastRatio (0.18333333333333335 : Float) 1 = .ok 4.5
  next_faint : contrastRatio (0.18333333333333338 : Float) 1 = .ok 4.499999999999999
  faint : ¬Below 4.5 4.499999999999999
  middle_toWhite : contrastRatio (0.5 : Float) 1 = .ok 1.909090909090909
  middle_toBlack : contrastRatio (0.5 : Float) 0 = .ok 11
  far : Below 4.5 4.58257569495584 ∧ ¬Below 4.58257569495584 4.5
  next_far : Below 4.58257569495584 4.582575694955842
  middle_far : Below 1.909090909090909 4.58257569495584 ∧ Below 4.58257569495584 11

theorem bandEnds : BandEnds := by
  constructor <;> decide +kernel

variable (hx : Below x 1) (hr : contrastRatio x 1 = .ok r) (hs : contrastRatio x 0 = .ok s)

include hx

/-- Each band begins right after the last light below it. -/
theorem dark_or_light : (Below x 0.17912878474779204 ∨ Below 0.17912878474779206 x) ∧
    (Below x 0.18333333333333335 ∨ Below 0.18333333333333338 x) := by
  have hsmall := hx.trans (below_ofNat (by decide) le_rfl : Below 1 1000)
  obtain ⟨hlast, hnext⟩ := bandEnds.last_value
  obtain ⟨hlast', hnext'⟩ := bandEnds.last_readable_value
  constructor
  · exact below_or_below_of_neighbours hsmall hlast hnext (by norm_num) (by norm_num)
  · exact below_or_below_of_neighbours hsmall hlast' hnext' (by norm_num) (by norm_num)

/-- A light is below the middle or from there on. -/
theorem lt_middle_iff : x < 0.5 ↔ ¬0.5 ≤ x := by
  have hmiddle := bandEnds.middle_light.2.self
  rw [← hmiddle.iff_le hx.self]
  exact (hmiddle.not_iff_lt hx.self).symm

include hr in
/-- White can be read on what is dark enough. -/
theorem readable_toWhite_iff : Below 4.5 r ↔ Below x 0.18333333333333335 := by
  obtain ⟨hmiddle, hone⟩ := bandEnds.middle_light
  rcases (dark_or_light hx).2 with hdark | hlight
  · exact iff_of_true (toWhite_anti hdark (hmiddle.trans hone) hr bandEnds.last_readable) hdark
  · have hle := toWhite_anti hlight hx bandEnds.next_faint hr
    exact iff_of_false (fun h => bandEnds.faint (h.trans hle))
      fun h => bandEnds.next_faint_light (hlight.trans h)

include hr hs

/-- White is farther away in light than black from what is a little darker still. -/
theorem toBlack_le_toWhite_iff : Below s r ↔ Below x 0.17912878474779204 := by
  obtain ⟨hmiddle, hone⟩ := bandEnds.middle_light
  rcases (dark_or_light hx).1 with hdark | hlight
  · have hlast := bandEnds.last_light.trans (hmiddle.trans hone)
    have hwhite := toWhite_anti hdark hlast hr bandEnds.last_toWhite
    have hblack := toBlack_mono hdark hlast hs bandEnds.last_toBlack
    exact iff_of_true (hblack.trans hwhite) hdark
  · have hwhite := toWhite_anti hlight hx bandEnds.next_toWhite hr
    have hblack := toBlack_mono hlight hx bandEnds.next_toBlack hs
    exact iff_of_false (fun h => bandEnds.next_nearer (hblack.trans (h.trans hwhite)))
      fun h => bandEnds.next_light (hlight.trans h)

/-- One of the two is far away. -/
theorem far_toWhite_or_toBlack : Below 4.58257569495584 r ∨ Below 4.58257569495584 s := by
  obtain ⟨hmiddle, hone⟩ := bandEnds.middle_light
  rcases (dark_or_light hx).1 with hdark | hlight
  · have hlast := bandEnds.last_light.trans (hmiddle.trans hone)
    exact .inl (toWhite_anti hdark hlast hr bandEnds.last_toWhite)
  · have hblack := toBlack_mono hlight hx bandEnds.next_toBlack hs
    exact .inr (bandEnds.next_far.trans hblack)

/-- From the middle on black is the one. -/
theorem far_toBlack_of_light (hlight : 0.5 ≤ x) : Below r s ∧ Below 4.58257569495584 s := by
  have hmiddle := (bandEnds.middle_light.2.self.iff_le hx.self).mpr hlight
  have hwhite := toWhite_anti hmiddle hx bandEnds.middle_toWhite hr
  have hblack := toBlack_mono hmiddle hx bandEnds.middle_toBlack hs
  obtain ⟨hnear, hfar⟩ := bandEnds.middle_far
  exact ⟨((hwhite.trans hnear).trans hfar).trans hblack, hfar.trans hblack⟩

theorem numbers_of_ratios : Below r r ∧ Below s s :=
  ⟨(below_of_contrastRatio hx (below_ofNat le_rfl (by decide)) hr).self,
    (below_of_contrastRatio hx (below_ofNat (by decide) (by decide)) hs).self⟩

theorem four_and_half_lt : 4.5 < r ∨ 4.5 < s := by
  obtain ⟨hr', hs'⟩ := numbers_of_ratios hx hr hs
  obtain ⟨hleast, hfar⟩ := bandEnds.far
  refine (far_toWhite_or_toBlack hx hr hs).imp (fun h => ?_) fun h => ?_
  · exact (hr'.not_iff_lt hleast.self).mp fun h' => hfar (h.trans h')
  · exact (hs'.not_iff_lt hleast.self).mp fun h' => hfar (h.trans h')

/-- White for dark and black for light can be read, except on lights that are nearly dark. -/
theorem readable_iff : 4.5 ≤ (if x < 0.5 then r else s) ↔
    x ≤ 0.18333333333333335 ∨ 0.5 ≤ x := by
  obtain ⟨hr', hs'⟩ := numbers_of_ratios hx hr hs
  have hleast := bandEnds.far.1
  by_cases hlight : 0.5 ≤ x
  · rw [if_neg (mt (lt_middle_iff hx).mp (not_not.mpr hlight))]
    have hfar := (far_toBlack_of_light hx hr hs hlight).2
    exact iff_of_true ((hleast.self.iff_le hs').mp (hleast.trans hfar)) (.inr hlight)
  · rw [if_pos ((lt_middle_iff hx).mpr hlight), or_iff_left hlight,
      ← hx.self.iff_le bandEnds.middle_light.1.self, ← readable_toWhite_iff hx hr]
    exact (hleast.self.iff_le hr').symm

/-- White for dark and black for light is the farther one, except on lights that are nearly dark. -/
theorem farther_iff : r ≤ (if x < 0.5 then r else s) ∧ s ≤ (if x < 0.5 then r else s) ↔
    x ≤ 0.17912878474779204 ∨ 0.5 ≤ x := by
  obtain ⟨hr', hs'⟩ := numbers_of_ratios hx hr hs
  by_cases hlight : 0.5 ≤ x
  · rw [if_neg (mt (lt_middle_iff hx).mp (not_not.mpr hlight))]
    have hfarther := (far_toBlack_of_light hx hr hs hlight).1
    exact iff_of_true ⟨(hr'.iff_le hs').mp hfarther, (hs'.iff_le hs').mp hs'⟩ (.inr hlight)
  · rw [if_pos ((lt_middle_iff hx).mpr hlight), or_iff_left hlight,
      and_iff_right ((hr'.iff_le hr').mp hr'), ← hx.self.iff_le bandEnds.last_light.self,
      ← toBlack_le_toWhite_iff hx hr hs]
    exact (hs'.iff_le hr').symm

end

/-! ## Curves of light -/

/-- The curve of light leads from none to full and does not leave the numbers in between. -/
structure UnitLight [LightCurve Float] : Prop where
  zero : LightCurve.light (0 : Float) = 0
  one : LightCurve.light (1 : Float) = 1
  below : ∀ {v : Float}, Below v 1 → Below (LightCurve.light v) 1

/-- What is computed on the two parts of the curve of the standard, the linear one near black and
the one above it, which ends at the power of one. -/
structure CurveParts : Prop where
  black : (0 : Float) ≤ 0.03928 ∧ (0 / 12.92 : Float) = 0
  white : ¬(1 : Float) ≤ 0.03928 ∧ ((1 + 0.055) / 1.055 : Float) = 1
  slope : Below 12.92 12.92 ∧ Below 0.03125 12.92
  linear_end : Below (1 / 12.92) 1000 ∧ Below (1 / 12.92) 1
  offset : Below 0.055 0.055 ∧ Below (1 + 0.055) 1000
  scale : Below 1.055 1.055 ∧ Below 0.03125 1.055
  base_end : Below ((1 + 0.055) / 1.055) 1000 ∧ Below ((1 + 0.055) / 1.055) 1

theorem curveParts : CurveParts := by
  constructor <;> decide +kernel

/-- The curve of the standard is one, if its power keeps one and stays in the unit interval. -/
theorem unitLight_standardLight {power : Float → Float} (hone : power 1 = 1)
    (hpower : ∀ x, Below x 1 → Below (power x) 1) :
    letI : LightCurve Float := ⟨standardLight power⟩
    UnitLight := by
  let inst : LightCurve Float := ⟨standardLight power⟩
  refine ⟨?_, ?_, fun {v} hv => ?_⟩
  · change standardLight power 0 = 0
    obtain ⟨hlinear, hvalue⟩ := curveParts.black
    rw [standardLight, if_pos hlinear, hvalue]
  · change standardLight power 1 = 1
    obtain ⟨habove, hbase⟩ := curveParts.white
    rw [standardLight, if_neg habove, hbase, hone]
  · change Below (standardLight power v) 1
    unfold standardLight
    split
    · obtain ⟨hslope, hlarge⟩ := curveParts.slope
      obtain ⟨hsmall, hend⟩ := curveParts.linear_end
      exact (hv.div hslope hlarge hsmall).trans hend
    · obtain ⟨hoffset, hbound⟩ := curveParts.offset
      obtain ⟨hscale, hlarge⟩ := curveParts.scale
      obtain ⟨hsmall, hend⟩ := curveParts.base_end
      have hsum : Below (v + 0.055) (1 + 0.055) := hv.add hoffset hbound
      have hbase : Below ((v + 0.055) / 1.055) ((1 + 0.055) / 1.055) :=
        hsum.div hscale hlarge hsmall
      exact hpower _ (hbase.trans hend)

/-- What is computed from the weights of the channels, which add up to one. -/
structure Weights : Prop where
  red : Below 0.2126 1
  green : Below 0.7152 1
  blue : Below 0.0722 1
  sums : Below (0.2126 + 0.7152) 1000 ∧ Below (0.2126 + 0.7152 + 0.0722) 1
  white : clamp (1 : Float) = 1 ∧ (0.2126 * 1 + 0.7152 * 1 + 0.0722 * 1 : Float) = 1
  black : clamp (0 : Float) = 0 ∧ (0.2126 * 0 + 0.7152 * 0 + 0.0722 * 0 : Float) = 0

theorem weights : Weights := by
  constructor <;> decide +kernel

section

variable [LightCurve Float] (hlight : UnitLight)

include hlight

theorem below_relativeLuminance (rgb : Triple Float) : Below (relativeLuminance rgb) 1 := by
  have hshare (x : Float) : Below (LightCurve.light (clamp x)) 1 := hlight.below (below_clamp x)
  have hred := weights.red.self.mul_share (hshare rgb.first)
  have hgreen := weights.green.self.mul_share (hshare rgb.second)
  have hblue := weights.blue.self.mul_share (hshare rgb.third)
  obtain ⟨hsmall, hone⟩ := weights.sums
  have hlarge := hone.trans (below_ofNat (by decide) le_rfl : Below 1 1000)
  exact ((hred.add hgreen hsmall).add hblue hlarge).trans hone

theorem relativeLuminance_white : relativeLuminance (.replicate (1 : Float)) = 1 := by
  change 0.2126 * LightCurve.light (clamp (1 : Float)) + 0.7152 * LightCurve.light (clamp 1) +
    0.0722 * LightCurve.light (clamp 1) = 1
  rw [weights.white.1, hlight.one, weights.white.2]

theorem relativeLuminance_black : relativeLuminance (.replicate (0 : Float)) = 0 := by
  change 0.2126 * LightCurve.light (clamp (0 : Float)) + 0.7152 * LightCurve.light (clamp 0) +
    0.0722 * LightCurve.light (clamp 0) = 0
  rw [weights.black.1, hlight.zero, weights.black.2]

end

/-! ## Channels -/

/-- Channels of hwb in their domains. -/
structure Triple.InHwb (t : Triple Float) : Prop where
  first : Below t.first 360
  second : Below t.second 1
  third : Below t.third 1

/-- Channels that are not large. -/
structure Triple.Moderate (t : Triple Float) : Prop where
  first : Below t.first 1000
  second : Below t.second 1000
  third : Below t.third 1000

theorem Triple.InHwb.moderate {t : Triple Float} (h : t.InHwb) : t.Moderate where
  first := h.first.trans (below_ofNat (by decide) le_rfl)
  second := h.second.trans (below_ofNat (by decide) le_rfl)
  third := h.third.trans (below_ofNat (by decide) le_rfl)

theorem inHwb_hwbOfRgb {kept : Float} (hkept : Below kept 360) (rgb : Triple Float) :
    (hwbOfRgb kept rgb).InHwb where
  first := below_hueOfRgb hkept _
  second := smaller_below (smaller_below (below_clamp _) (below_clamp _)) (below_clamp _)
  third := (larger_below (larger_below (below_clamp _) (below_clamp _)) (below_clamp _)).one_sub

/-- A gray that whiteness and blackness fill up does not show its hue. -/
theorem rgbOfHwb_of_full (hue : Float) {whiteness blackness gray : Float}
    (hfull : 1 ≤ clamp whiteness + clamp blackness)
    (hgray : clamp whiteness / (clamp whiteness + clamp blackness) = gray) :
    rgbOfHwb ⟨hue, whiteness, blackness⟩ = .ok (.replicate gray) := by
  rw [rgbOfHwb]
  dsimp only
  rw [if_pos hfull, hgray]
  rfl

/-- Channels that stand for the same numbers. -/
theorem rgbOfHwb_congr {s t : Triple Float} (hs : s.Moderate)
    (hfirst : exactValue? s.first = exactValue? t.first)
    (hsecond : exactValue? s.second = exactValue? t.second)
    (hthird : exactValue? s.third = exactValue? t.third) : rgbOfHwb s = rgbOfHwb t := by
  have hagree {x y : Float} (hx : Below x 1000) (hxy : exactValue? x = exactValue? y) :
      Agree x y := by
    obtain ⟨p, -, hp, -⟩ := hx
    exact agree_of_beq ((Double.beq_iff hp (hxy.symm.trans hp)).mpr rfl)
  exact Likeness.Channels.rgbOfHwb_eq (l := sameDoubles) (k := sameDoubles.still)
    ⟨hagree hs.first hfirst, hagree hs.second hsecond, hagree hs.third hthird⟩

namespace Color

/-- The channels are in their domains, and so is the hue that is remembered. -/
structure InDomain (c : Color Float) : Prop where
  hue : Below c.hue 360
  first : Below c.channels.first (if c.space = .rgb then 1 else 360)
  second : Below c.channels.second 1
  third : Below c.channels.third 1

theorem InDomain.hasRgb {c : Color Float} (hc : c.InDomain) : c.HasRgb := by
  unfold HasRgb
  split
  · trivial
  · exact hc.first.isSome
  · exact .inr hc.first.isSome

/-- The color in hwb. -/
theorem InDomain.exists_start {c : Color Float} (hc : c.InDomain) : ∃ start,
    c.inSpace .hwb = .ok start ∧ start.space = .hwb ∧ start.channels.InHwb ∧
      c.hwb = .ok start.channels := by
  by_cases hspace : .hwb = c.space
  · have hfirst := hc.first
    rw [if_neg (by rw [← hspace]; decide)] at hfirst
    exact ⟨c, if_pos hspace, hspace.symm, ⟨hfirst, hc.second, hc.third⟩,
      (congrArg c.channelsIn hspace).trans c.channelsIn_space⟩
  · obtain ⟨rgb, hrgb⟩ := isOk_iff_exists.mp (c.rgb_isOk_iff.mpr hc.hasRgb)
    have hhwb : c.hwb = .ok (hwbOfRgb c.hue rgb) := by
      rw [hwb_of_ne hspace, hrgb]
      rfl
    exact ⟨_, inSpace_of_ne hspace hhwb, rfl, inHwb_hwbOfRgb hc.hue rgb, hhwb⟩

variable {start goal : Color Float}

theorem rgb_of_hwb (hspace : start.space = .hwb) : start.rgb = rgbOfHwb start.channels := by
  rw [Color.rgb, hspace]

/-- A color on the way between two colors of hwb is not large. -/
theorem moderate_onLine (hstart : start.channels.InHwb) (hgoal : goal.channels.InHwb)
    {share : Float} (hshare : Below share 1) : (start.onLine goal share).channels.Moderate where
  first := (hshare.between hstart.first hgoal.first (by decide)).trans
    (below_ofNat (by decide) le_rfl)
  second := (hshare.between hstart.second hgoal.second (by decide)).trans
    (below_ofNat (by decide) le_rfl)
  third := (hshare.between hstart.third hgoal.third (by decide)).trans
    (below_ofNat (by decide) le_rfl)

theorem hasRgb_onLine (hstart : start.channels.InHwb) (hgoal : goal.channels.InHwb)
    {share : Float} (hshare : Below share 1) : (start.onLine goal share).HasRgb :=
  .inr (moderate_onLine hstart hgoal hshare).first.isSome

/-- No part of the way is its start. -/
theorem rgb_onLine_zero (hspace : start.space = .hwb) (hstart : start.channels.Moderate)
    (hgoal : goal.channels.Moderate) : (start.onLine goal 0).rgb = start.rgb := by
  rw [rgb_of_hwb hspace]
  refine (rgbOfHwb_congr hstart ?_ ?_ ?_).symm
  · exact (exactValue?_between_zero hstart.first hgoal.first).symm
  · exact (exactValue?_between_zero hstart.second hgoal.second).symm
  · exact (exactValue?_between_zero hstart.third hgoal.third).symm

/-- The whole way leads to its end. -/
theorem rgb_onLine_one (hspace : goal.space = .hwb) (hstart : start.channels.Moderate)
    (hgoal : goal.channels.Moderate) : (start.onLine goal 1).rgb = goal.rgb := by
  rw [rgb_of_hwb hspace]
  refine (rgbOfHwb_congr hgoal ?_ ?_ ?_).symm
  · exact (exactValue?_between_one hstart.first hgoal.first).symm
  · exact (exactValue?_between_one hstart.second hgoal.second).symm
  · exact (exactValue?_between_one hstart.third hgoal.third).symm

/-! ## The search -/

section

variable [LightCurve Float] (hlight : UnitLight) {c d : Color Float} {light ratio : Float}

include hlight

theorem exists_luminance_double (hc : c.HasRgb) : ∃ light, c.luminance = .ok light ∧
    Below light 1 := by
  obtain ⟨rgb, hrgb⟩ := isOk_iff_exists.mp (c.rgb_isOk_iff.mpr hc)
  exact ⟨_, by rw [luminance, hrgb]; rfl, below_relativeLuminance hlight rgb⟩

theorem luminance_white (h : d.rgb = .ok (.replicate 1)) : d.luminance = .ok 1 := by
  rw [luminance, h]
  exact congrArg Except.ok (relativeLuminance_white hlight)

theorem luminance_black (h : d.rgb = .ok (.replicate 0)) : d.luminance = .ok 0 := by
  rw [luminance, h]
  exact congrArg Except.ok (relativeLuminance_black hlight)

omit hlight in
theorem contrastWith_eq_of_luminance {light' : Float} (hc : c.luminance = .ok light)
    (hd : d.luminance = .ok light') : c.contrastWith d = contrastRatio light light' := by
  rw [contrastWith, hc, hd]
  rfl

/-- The contrast of two colors is a number. -/
theorem exists_contrastWith_double (hc : c.HasRgb) (hd : d.HasRgb) :
    ∃ ratio, c.contrastWith d = .ok ratio ∧ Below ratio 1000 := by
  obtain ⟨light, hlightc, hbelow⟩ := exists_luminance_double hlight hc
  obtain ⟨light', hlightd, hbelow'⟩ := exists_luminance_double hlight hd
  obtain ⟨hratio, hnumber⟩ := exists_contrastRatio_double hbelow hbelow'
  exact ⟨_, (contrastWith_eq_of_luminance hlightc hlightd).trans hratio, hnumber⟩

/-- The other color can be read on the color: their ratio is 4.5 at least. -/
def Legible (c d : Color Float) : Prop :=
  ∃ ratio, c.contrastWith d = .ok ratio ∧ 4.5 ≤ ratio

variable {start goal : Color Float}

/-- The search keeps an interval of shares at whose upper end the way can be read. -/
theorem exists_leastReadable_double (hc : c.HasRgb) (hstart : start.space = .hwb)
    (hgoal : goal.space = .hwb) (hstarts : start.channels.InHwb) (hgoals : goal.channels.InHwb)
    (steps : ℕ) {low high : Float} (hlow : Below low 1) (hhigh : Below high 1)
    (hreads : c.Legible (start.onLine goal high)) :
    ∃ share, c.leastReadable start goal steps low high = .ok share ∧ Below share 1 ∧
      c.Legible (start.onLine goal share) := by
  induction steps generalizing low high with
  | zero => exact ⟨high, rfl, hhigh, hreads⟩
  | succ steps ih =>
    have hmiddle := hlow.middle hhigh
    obtain ⟨ratio, hratio, -⟩ :=
      exists_contrastWith_double hlight hc (hasRgb_onLine hstarts hgoals hmiddle)
    have hstep : c.leastReadable start goal (steps + 1) low high =
        if readableRatio ≤ ratio then c.leastReadable start goal steps low ((low + high) / 2)
        else c.leastReadable start goal steps ((low + high) / 2) high := by
      rw [leastReadable, blend_hwb hstart hgoal]
      change (c.contrastWith _ >>= _) = _
      rw [hratio]
      rfl
    rw [hstep]
    split
    · next hread => exact ih hlow hmiddle ⟨ratio, hratio, hread⟩
    · exact ih hmiddle hhigh hreads

/-- The search begins with the whole way, which can be read at its end. -/
theorem exists_nearestReadable_double (hc : c.HasRgb) (hinSpace : c.inSpace .hwb = .ok start)
    (hgoal : goal.space = .hwb) (hstarts : start.channels.InHwb) (hgoals : goal.channels.InHwb)
    (hreads : c.Legible goal) :
    ∃ nearest, c.nearestReadable goal = .ok nearest ∧ nearest.space = .hwb ∧
      nearest.channels.Moderate ∧ c.Legible nearest := by
  have hstart := space_of_inSpace hinSpace
  have hone : Below 1 1 := below_ofNat le_rfl (by decide)
  have hwhole : c.Legible (start.onLine goal 1) := by
    rwa [Legible, contrastWith_eq_of_rgb (rgb_onLine_one hgoal hstarts.moderate hgoals.moderate)]
  obtain ⟨share, hshare, hbelow, hlegible⟩ := exists_leastReadable_double hlight hc hstart hgoal
    hstarts hgoals searchSteps hone.zero hone hwhole
  refine ⟨start.onLine goal share, ?_, rfl, moderate_onLine hstarts hgoals hbelow, hlegible⟩
  rw [nearestReadable, hinSpace]
  change (c.leastReadable start goal searchSteps 0 1 >>= _) = _
  rw [hshare]
  exact blend_hwb hstart hgoal share

/-! ## Contrast -/

omit hlight in
/-- Contrast goes to white or black on the hwb line of the color's hue. -/
theorem exists_contrastGoal_double {t : Triple Float} (hhwb : c.hwb = .ok t) (ht : t.InHwb)
    (hluminance : c.luminance = .ok light) : ∃ goal, c.contrastGoal = .ok goal ∧
      goal.space = .hwb ∧ goal.channels.InHwb ∧
      goal.rgb = .ok (.replicate (if light < 0.5 then 1 else 0)) := by
  have hone : Below 1 1 := below_ofNat le_rfl (by decide)
  have hgoal : c.contrastGoal = .ok
      (ofChannels .hwb (if light < 0.5 then ⟨t.first, 1, 0⟩ else ⟨t.first, 0, 1⟩) c.alpha) := by
    rw [contrastGoal, hhwb, hluminance]
    rfl
  refine ⟨_, hgoal, rfl, ?_, ?_⟩
  · split
    · exact ⟨ht.first, hone, hone.zero⟩
    · exact ⟨ht.first, hone.zero, hone⟩
  · rw [rgb_of_hwb rfl]
    split
    · exact rgbOfHwb_of_full t.first (by decide +kernel) (by decide +kernel)
    · exact rgbOfHwb_of_full t.first (by decide +kernel) (by decide +kernel)

/-- Contrast at share 1 is the goal, and at share 0 it can be read when the goal can. -/
theorem exists_contrast_double (hc : c.HasRgb) (hinSpace : c.inSpace .hwb = .ok start)
    (hcontrast : c.contrastGoal = .ok goal) (hgoal : goal.space = .hwb)
    (hstarts : start.channels.InHwb) (hgoals : goal.channels.InHwb)
    (hratio : c.contrastWith goal = .ok ratio) (hnumber : Below ratio 1000) :
    ∃ least most toLeast, c.contrast 0 = .ok least ∧ c.contrast 1 = .ok most ∧
      most.rgb = goal.rgb ∧ c.contrastWith least = .ok toLeast ∧ (4.5 ≤ toLeast ↔ 4.5 ≤ ratio) := by
  have hends := contrast_of_goal hcontrast hratio
  by_cases hfar : 4.5 < ratio
  · have hbound := bandEnds.far.1.self
    have hle : 4.5 ≤ ratio :=
      (hbound.iff_le hnumber.self).mp (hbound.of_lt hnumber.self hfar)
    obtain ⟨nearest, hnearest, hspace, hmoderate, toLeast, htoLeast, hlegible⟩ :=
      exists_nearestReadable_double hlight hc hinSpace hgoal hstarts hgoals ⟨ratio, hratio, hle⟩
    simp only [if_pos hfar, hnearest] at hends
    refine ⟨_, _, toLeast, (hends 0).trans (blend_hwb hspace hgoal 0),
      (hends 1).trans (blend_hwb hspace hgoal 1),
      rgb_onLine_one hgoal hmoderate hgoals.moderate, ?_, iff_of_true hlegible hle⟩
    rwa [contrastWith_eq_of_rgb (rgb_onLine_zero hspace hmoderate hgoals.moderate)]
  · simp only [if_neg hfar] at hends
    refine ⟨_, _, ratio, (hends 0).trans (blend_hwb hgoal hgoal 0),
      (hends 1).trans (blend_hwb hgoal hgoal 1),
      rgb_onLine_one hgoal hgoals.moderate hgoals.moderate, ?_, Iff.rfl⟩
    rwa [contrastWith_eq_of_rgb (rgb_onLine_zero hgoal hgoals.moderate hgoals.moderate)]

/-- One of white and black is farther than 4.5 from any color.  Contrast at share 1 is white for
light below a half and black from there on.  Contrast at share 0 can be read on the color outside of
the lights between 0.183… and a half, and contrast at share 1 is the farther one of white and black
outside of the lights between 0.179… and a half. -/
theorem contrast_keeps_iff (hc : c.InDomain) :
    ∃ light toWhite toBlack least toLeast most toMost, c.luminance = .ok light ∧
      (0 ≤ light ∧ light ≤ 1) ∧
      c.contrastWith (ofChannels .rgb (.replicate 1) 1) = .ok toWhite ∧
      c.contrastWith (ofChannels .rgb (.replicate 0) 1) = .ok toBlack ∧
      (4.5 < toWhite ∨ 4.5 < toBlack) ∧
      c.contrast 0 = .ok least ∧ c.contrastWith least = .ok toLeast ∧
      c.contrast 1 = .ok most ∧ c.contrastWith most = .ok toMost ∧
      most.rgb = .ok (.replicate (if light < 0.5 then 1 else 0)) ∧
      (4.5 ≤ toLeast ↔ light ≤ 0.18333333333333335 ∨ 0.5 ≤ light) ∧
      (toWhite ≤ toMost ∧ toBlack ≤ toMost ↔ light ≤ 0.17912878474779204 ∨ 0.5 ≤ light) := by
  obtain ⟨start, hinSpace, -, hstarts, hhwb⟩ := hc.exists_start
  obtain ⟨light, hluminance, hbelow⟩ := exists_luminance_double hlight hc.hasRgb
  obtain ⟨goal, hgoal, hspace, hgoals, hrgb⟩ :=
    exists_contrastGoal_double hhwb hstarts hluminance
  have hone : Below 1 1 := below_ofNat le_rfl (by decide)
  obtain ⟨toWhite, htoWhite⟩ : ∃ r, contrastRatio light 1 = .ok r :=
    ⟨_, (exists_contrastRatio_double hbelow hone).1⟩
  obtain ⟨toBlack, htoBlack⟩ : ∃ r, contrastRatio light 0 = .ok r :=
    ⟨_, (exists_contrastRatio_double hbelow hone.zero).1⟩
  have hwhite {d : Color Float} (h : d.rgb = .ok (.replicate 1)) : c.contrastWith d = .ok toWhite :=
    (contrastWith_eq_of_luminance hluminance (luminance_white hlight h)).trans htoWhite
  have hblack {d : Color Float} (h : d.rgb = .ok (.replicate 0)) : c.contrastWith d = .ok toBlack :=
    (contrastWith_eq_of_luminance hluminance (luminance_black hlight h)).trans htoBlack
  have hratio : c.contrastWith goal = .ok (if light < 0.5 then toWhite else toBlack) := by
    split
    · next hdark => exact hwhite (by rw [hrgb, if_pos hdark])
    · next hdark => exact hblack (by rw [hrgb, if_neg hdark])
  have hnumber : Below (if light < 0.5 then toWhite else toBlack) 1000 := by
    split
    · exact below_of_contrastRatio hbelow hone htoWhite
    · exact below_of_contrastRatio hbelow hone.zero htoBlack
  obtain ⟨least, most, toLeast, hleast, hmost, hmostRgb, htoLeast, hreads⟩ :=
    exists_contrast_double hlight hc.hasRgb hinSpace hgoal hspace hstarts hgoals hratio hnumber
  have hinterval : 0 ≤ light ∧ light ≤ 1 :=
    ⟨(hone.zero.self.iff_le hbelow.self).mp hbelow.zero, (hbelow.self.iff_le hone).mp hbelow⟩
  have htoMost : c.contrastWith most = .ok (if light < 0.5 then toWhite else toBlack) := by
    rw [contrastWith_eq_of_rgb hmostRgb, hratio]
  exact ⟨light, toWhite, toBlack, least, toLeast, most, _, hluminance, hinterval, hwhite rfl,
    hblack rfl, four_and_half_lt hbelow htoWhite htoBlack, hleast, htoLeast, hmost, htoMost,
    hmostRgb.trans hrgb, hreads.trans (readable_iff hbelow htoWhite htoBlack),
    farther_iff hbelow htoWhite htoBlack⟩

end

/-- On the curve of the standard, here with the square for its power, red has a light of 0.2126, as it
has with any power that keeps one.  Contrast goes to white, which cannot be read on red, and black
would be farther away. -/
theorem contrast_keeps_iff_red :
    letI : LightCurve Float := ⟨standardLight fun x => x * x⟩
    let red : Color Float := ofChannels .rgb ⟨1, 0, 0⟩ 1
    let black : Color Float := ofChannels .rgb (.replicate 0) 1
    ∃ least toLeast most toMost toBlack, red.contrast 0 = .ok least ∧
      red.contrastWith least = .ok toLeast ∧ ¬4.5 ≤ toLeast ∧ red.contrast 1 = .ok most ∧
      most.rgb = .ok (.replicate 1) ∧ red.contrastWith most = .ok toMost ∧
      red.contrastWith black = .ok toBlack ∧ ¬toBlack ≤ toMost := by
  let inst : LightCurve Float := ⟨standardLight fun x => x * x⟩
  intro red black
  let white : Color Float := ofChannels .rgb (.replicate 1) 1
  have hcurve : UnitLight := unitLight_standardLight (by decide +kernel) fun x hx => hx.mul_share hx
  have hred : red.InDomain :=
    ⟨by decide +kernel, by decide +kernel, by decide +kernel, by decide +kernel⟩
  have hlight : red.luminance = .ok 0.2126 := by decide +kernel
  have hwhite : red.contrastWith white = .ok 3.9984767707539985 := by decide +kernel
  obtain ⟨light, toWhite, toBlack, least, toLeast, most, toMost, hluminance, -, htoWhite, htoBlack,
    -, hleast, htoLeast, hmost, htoMost, hrgb, hreads, hfarther⟩ := contrast_keeps_iff hcurve hred
  obtain rfl := Except.ok.inj (hlight.symm.trans hluminance)
  obtain rfl := Except.ok.inj (hwhite.symm.trans htoWhite)
  rw [if_pos (by decide +kernel)] at hrgb
  have hwhitest : most.rgb = white.rgb := hrgb
  have hsame := htoMost
  rw [contrastWith_eq_of_rgb hwhitest, hwhite] at hsame
  obtain rfl := Except.ok.inj hsame
  refine ⟨least, toLeast, most, _, toBlack, hleast, htoLeast, fun h => ?_, hmost, hrgb, htoMost,
    htoBlack, fun h => ?_⟩
  · exact absurd (hreads.mp h) (by decide +kernel)
  · exact absurd (hfarther.mp ⟨by decide +kernel, h⟩) (by decide +kernel)

end Color

end ColorMod
