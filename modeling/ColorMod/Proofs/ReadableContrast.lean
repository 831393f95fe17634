import ColorMod.Color.Contrast
import ColorMod.Proofs.Mixtures

/-!
# Readable contrast in exact arithmetic

Contrast looks for the nearest readable color by halving an interval of shares.  The way from the
color to black or white may become readable and faint again many times over.  The search only keeps
an interval at whose upper end the way is readable and at whose lower end it is faint, unless that
end is the start.  32 halvings leave an interval of width 2⁻³².

* `Brackets`: what the search keeps of its interval.
* `Brackets.exists_half`, `Brackets.exists_leastReadable`: one halving, and all of them.
* `contrast_readable`: which colors contrast ends at.
-/

namespace ColorMod

open Scalar

section

variable [LightCurve ℚ] (hlight : ∀ v : ℚ, 0 ≤ v ∧ v ≤ 1 → 0 ≤ LightCurve.light v)

include hlight

theorem relativeLuminance_nonneg (t : Triple ℚ) : 0 ≤ relativeLuminance t := by
  have hchannel (v : ℚ) : 0 ≤ LightCurve.light (clamp v) :=
    hlight _ ⟨clamp_nonneg v, clamp_le_one v⟩
  have hred := hchannel t.first
  have hgreen := hchannel t.second
  have hblue := hchannel t.third
  unfold relativeLuminance
  simp only [Triple.map]
  positivity

omit [LightCurve ℚ] hlight in
theorem exists_contrastRatio {light₁ light₂ : ℚ} (h₁ : 0 ≤ light₁) (h₂ : 0 ≤ light₂) :
    ∃ ratio, contrastRatio light₁ light₂ = .ok ratio := by
  have hsmaller : 0 ≤ smaller light₁ light₂ := by
    rw [smaller_eq_min]
    exact le_min h₁ h₂
  exact ⟨_, divide_eq (by positivity)⟩

namespace Color

theorem exists_luminance (c : Color ℚ) : ∃ light, c.luminance = .ok light ∧ 0 ≤ light := by
  obtain ⟨t, ht, -⟩ := c.exists_rgb
  exact ⟨relativeLuminance t, by rw [luminance, ht]; rfl, relativeLuminance_nonneg hlight t⟩

/-- The contrast of two colors is a number. -/
theorem exists_contrastWith (c other : Color ℚ) : ∃ ratio, c.contrastWith other = .ok ratio := by
  obtain ⟨light, hc, hnonneg⟩ := c.exists_luminance hlight
  obtain ⟨light', hother, hnonneg'⟩ := other.exists_luminance hlight
  obtain ⟨ratio, hratio⟩ := exists_contrastRatio hnonneg hnonneg'
  exact ⟨ratio, by rw [contrastWith, hc, hother]; exact hratio⟩

end Color

end

namespace Color

section

variable {α : Type} [Scalar α] [LightCurve α]

theorem contrastWith_eq_of_rgb {d e : Color α} (h : d.rgb = e.rgb) (c : Color α) :
    c.contrastWith d = c.contrastWith e := by
  unfold contrastWith luminance
  rw [h]

/-- Contrast goes from the nearest readable color to the goal, if there is more than one. -/
theorem contrast_of_goal {c goal : Color α} (hgoal : c.contrastGoal = .ok goal) {ratio : α}
    (hratio : c.contrastWith goal = .ok ratio) (share : α) : c.contrast share =
      (if 4.5 < ratio then c.nearestReadable goal else pure goal) >>=
        (·.blend goal share .hwb) := by
  rw [contrast_eq, hgoal]
  change (c.contrastWith goal >>= _) = _
  rw [hratio]
  rfl

end

/-! ## Black or white -/

/-- Whiteness and blackness that just fill a color up make a gray. -/
theorem rgb_gray (hue alpha gray : ℚ) (hgray : 0 ≤ gray ∧ gray ≤ 1) :
    (ofChannels .hwb ⟨hue, gray, 1 - gray⟩ alpha).rgb = .ok (.replicate gray) := by
  have hwhiteness : clamp gray = gray := clamp_of_mem hgray.1 hgray.2
  have hblackness : clamp (1 - gray) = 1 - gray := by
    apply clamp_of_mem <;> linarith
  change rgbOfHwb ⟨hue, gray, 1 - gray⟩ = _
  rw [rgbOfHwb_eq_of_le (by dsimp only; rw [hwhiteness, hblackness]; linarith)]
  dsimp only
  rw [hwhiteness, hblackness, add_sub_cancel, div_one]

theorem blend_hwb_eq {start goal : Color ℚ} (hstart : start.space = .hwb)
    (hgoal : goal.space = .hwb) (share : ℚ) : start.blend goal share .hwb = .ok (ofChannels .hwb
      (start.channels.zipWith (between share) goal.channels) start.alpha start.hue) :=
  mix_of_inSpace (if_pos hstart.symm) (if_pos hgoal.symm) share false

section

variable [LightCurve ℚ]

/-- Contrast goes to white or to black, and from there no farther. -/
theorem exists_contrastGoal (hlight : ∀ v : ℚ, 0 ≤ v ∧ v ≤ 1 → 0 ≤ LightCurve.light v)
    (c : Color ℚ) : ∃ goal, c.contrastGoal = .ok goal ∧ goal.space = .hwb ∧
      (goal.rgb = .ok (.replicate 1) ∨ goal.rgb = .ok (.replicate 0)) ∧
      ∀ share, goal.blend goal share .hwb = .ok goal := by
  obtain ⟨t, ht⟩ : ∃ t, c.hwb = .ok t := by
    by_cases hspace : .hwb = c.space
    · exact ⟨c.channels, (congrArg c.channelsIn hspace).trans c.channelsIn_space⟩
    · obtain ⟨t, ht, -⟩ := c.exists_channelsIn hspace
      exact ⟨t, ht⟩
  obtain ⟨light, hc, -⟩ := c.exists_luminance hlight
  have hgoal : c.contrastGoal = .ok
      (ofChannels .hwb (if light < 0.5 then ⟨t.first, 1, 0⟩ else ⟨t.first, 0, 1⟩) c.alpha) := by
    rw [contrastGoal, ht, hc]
    rfl
  refine ⟨_, hgoal, rfl, ?_, fun share => ?_⟩
  · split
    · exact .inl (by simpa using rgb_gray t.first c.alpha 1 (by norm_num))
    · exact .inr (by simpa using rgb_gray t.first c.alpha 0 (by norm_num))
  · rw [blend_hwb_eq rfl rfl, Triple.zipWith_between_self]
    rfl

/-! ## The search -/

/-- The other color can be read on the color: their ratio is 4.5 at least. -/
def Readable (c other : Color ℚ) : Prop :=
  ∃ ratio, c.contrastWith other = .ok ratio ∧ 4.5 ≤ ratio

/-- The other color is too near in light to be read on the color. -/
def Faint (c other : Color ℚ) : Prop :=
  ∃ ratio, c.contrastWith other = .ok ratio ∧ ratio < 4.5

/-- The way from `start` to `goal` is readable on `c` at the share `high`, and it is faint at the
share `low` unless that is the start. -/
structure Brackets (c start goal : Color ℚ) (low high : ℚ) : Prop where
  low_nonneg : 0 ≤ low
  low_lt_high : low < high
  high_le_one : high ≤ 1
  readable : ∃ d, start.blend goal high .hwb = .ok d ∧ c.Readable d
  faint : low = 0 ∨ ∃ d, start.blend goal low .hwb = .ok d ∧ c.Faint d

variable {c start goal : Color ℚ} {low high : ℚ}

/-- One step of the search keeps a half of the interval. -/
theorem Brackets.exists_half (hlight : ∀ v : ℚ, 0 ≤ v ∧ v ≤ 1 → 0 ≤ LightCurve.light v)
    (hstart : start.space = .hwb) (hgoal : goal.space = .hwb)
    (h : Brackets c start goal low high) : ∃ low' high', high' - low' = (high - low) / 2 ∧
      Brackets c start goal low' high' ∧ ∀ steps,
        c.leastReadable start goal (steps + 1) low high =
          c.leastReadable start goal steps low' high' := by
  have hd := blend_hwb_eq hstart hgoal ((low + high) / 2)
  obtain ⟨ratio, hratio⟩ := c.exists_contrastWith hlight _
  have hlow := h.low_nonneg
  have hlt := h.low_lt_high
  have hhigh := h.high_le_one
  have hstep (steps : ℕ) : c.leastReadable start goal (steps + 1) low high =
      if readableRatio ≤ ratio then c.leastReadable start goal steps low ((low + high) / 2)
      else c.leastReadable start goal steps ((low + high) / 2) high := by
    rw [leastReadable, hd]
    change (c.contrastWith _ >>= _) = _
    rw [hratio]
    rfl
  -- the half that is kept depends on its middle alone, so the ratios elsewhere may be in any order
  by_cases hread : readableRatio ≤ ratio
  · refine ⟨low, (low + high) / 2, by ring, ⟨hlow, by linarith, by linarith,
      ⟨_, hd, ratio, hratio, hread⟩, h.faint⟩, fun steps => ?_⟩
    rw [hstep, if_pos hread]
  · refine ⟨(low + high) / 2, high, by ring, ⟨by linarith, by linarith, hhigh, h.readable,
      .inr ⟨_, hd, ratio, hratio, not_le.mp hread⟩⟩, fun steps => ?_⟩
    rw [hstep, if_neg hread]

/-- The search ends at the upper end of an interval that was halved at every step. -/
theorem Brackets.exists_leastReadable
    (hlight : ∀ v : ℚ, 0 ≤ v ∧ v ≤ 1 → 0 ≤ LightCurve.light v)
    (hstart : start.space = .hwb) (hgoal : goal.space = .hwb) (steps : ℕ)
    (h : Brackets c start goal low high) : ∃ share,
      c.leastReadable start goal steps low high = .ok share ∧
      Brackets c start goal (share - (high - low) / 2 ^ steps) share := by
  induction steps generalizing low high with
  | zero => exact ⟨high, rfl, by simpa using h⟩
  | succ steps ih =>
    obtain ⟨low', high', hwidth, h', hstep⟩ := h.exists_half hlight hstart hgoal
    obtain ⟨share, hshare, hend⟩ := ih h'
    have hwidth' : (high' - low') / 2 ^ steps = (high - low) / 2 ^ (steps + 1) := by
      rw [hwidth, div_div, pow_succ']
    exact ⟨share, (hstep steps).trans hshare, hwidth' ▸ hend⟩

/-- The search begins at the whole way and ends at a point that reads well. -/
theorem exists_nearestReadable (hlight : ∀ v : ℚ, 0 ≤ v ∧ v ≤ 1 → 0 ≤ LightCurve.light v)
    (hstart : c.inSpace .hwb = .ok start) (hgoal : goal.space = .hwb) {ratio : ℚ}
    (hratio : c.contrastWith goal = .ok ratio) (hfar : 4.5 < ratio) :
    ∃ share nearest, c.nearestReadable goal = .ok nearest ∧
      start.blend goal share .hwb = .ok nearest ∧ c.Readable nearest ∧
      Brackets c start goal (share - 1 / 2 ^ 32) share := by
  have hspace := space_of_inSpace hstart
  have hend := blend_hwb_eq hspace hgoal 1
  rw [Triple.zipWith_between_one] at hend
  have hwhole : Brackets c start goal 0 1 :=
    ⟨le_rfl, zero_lt_one, le_rfl, ⟨_, hend, ratio,
      (contrastWith_eq_of_rgb (rgb_ofChannels hgoal _ _) c).trans hratio, hfar.le⟩, .inl rfl⟩
  obtain ⟨share, hshare, hbrackets⟩ := hwhole.exists_leastReadable hlight hspace hgoal searchSteps
  rw [sub_zero] at hbrackets
  obtain ⟨nearest, hnearest, hreadable⟩ := hbrackets.readable
  refine ⟨share, nearest, ?_, hnearest, hreadable, hbrackets⟩
  rw [nearestReadable, hstart]
  change (c.leastReadable start goal searchSteps 0 1 >>= _) = _
  rw [hshare]
  exact hnearest

/-- Whatever light the channels give off, as long as none is negative, contrast at share 1 is white
or black.  If the ratio of that goal to the color is 4.5 at most, contrast is the goal at any share.
Otherwise the search comes to a readable point of the way, the point that lies 2⁻³² before it is
faint unless that is the start, and contrast at share 0 has the channels of the point that the search
came to. -/
theorem contrast_readable (hlight : ∀ v : ℚ, 0 ≤ v ∧ v ≤ 1 → 0 ≤ LightCurve.light v)
    (c : Color ℚ) : ∃ start goal ratio, c.inSpace .hwb = .ok start ∧ c.contrastGoal = .ok goal ∧
      c.contrastWith goal = .ok ratio ∧
      (∃ d, c.contrast 1 = .ok d ∧ (d.rgb = .ok (.replicate 1) ∨ d.rgb = .ok (.replicate 0))) ∧
      (ratio ≤ 4.5 → ∀ share, c.contrast share = .ok goal) ∧
      (4.5 < ratio → ∃ high nearest, 0 < high ∧ high ≤ 1 ∧
        c.nearestReadable goal = .ok nearest ∧ start.blend goal high .hwb = .ok nearest ∧
        c.Readable nearest ∧
        (high = 1 / 2 ^ 32 ∨
          ∃ before, start.blend goal (high - 1 / 2 ^ 32) .hwb = .ok before ∧ c.Faint before) ∧
        ∃ d, c.contrast 0 = .ok d ∧ d.space = nearest.space ∧ d.channels = nearest.channels) := by
  obtain ⟨t, start, -, hstart, hstartHwb, -⟩ := c.exists_inSpace_hwb
  obtain ⟨goal, hgoal, hgoalHwb, hextreme, hself⟩ := exists_contrastGoal hlight c
  obtain ⟨ratio, hratio⟩ := c.exists_contrastWith hlight goal
  have hcontrast := contrast_of_goal hgoal hratio
  refine ⟨start, goal, ratio, hstart, hgoal, hratio, ?_⟩
  by_cases hfar : 4.5 < ratio
  · simp only [if_pos hfar] at hcontrast
    obtain ⟨share, nearest, hnearest, hblend, hreadable, hbrackets⟩ :=
      exists_nearestReadable hlight hstart hgoalHwb hratio hfar
    have hnearHwb : nearest.space = .hwb := by
      cases (blend_hwb_eq hstartHwb hgoalHwb share).symm.trans hblend
      rfl
    simp only [hnearest] at hcontrast
    have hone := (hcontrast 1).trans (blend_hwb_eq hnearHwb hgoalHwb 1)
    have hzero := (hcontrast 0).trans (blend_hwb_eq hnearHwb hgoalHwb 0)
    rw [Triple.zipWith_between_one] at hone
    rw [Triple.zipWith_between_zero] at hzero
    have hlow := hbrackets.low_nonneg
    have hlt := hbrackets.low_lt_high
    refine ⟨⟨_, hone, ?_⟩, fun hnear => absurd hnear (not_le.mpr hfar), fun _ =>
      ⟨share, nearest, by linarith, hbrackets.high_le_one, hnearest, hblend, hreadable, ?_,
        _, hzero, hnearHwb.symm, rfl⟩⟩
    · rwa [rgb_ofChannels hgoalHwb]
    · exact hbrackets.faint.imp_left sub_eq_zero.mp
  · simp only [if_neg hfar] at hcontrast
    have hall (share : ℚ) := (hcontrast share).trans (hself share)
    exact ⟨⟨_, hall 1, hextreme⟩, fun _ => hall, fun h => absurd h hfar⟩

end

/-- On black, with light as it is in the channels, a gray of 0.175 has the ratio 4.5, and the search
comes to the next multiple of 2⁻³². -/
theorem contrast_readable_black :
    letI : LightCurve ℚ := ⟨id⟩
    let black : Color ℚ := ofChannels .rgb (.replicate 0) 0.5 210
    ∃ goal nearest, black.contrastGoal = .ok goal ∧ black.nearestReadable goal = .ok nearest ∧
      black.Readable nearest ∧ nearest.channels = ⟨210, 751619277 / 2 ^ 32, 3543348019 / 2 ^ 32⟩ ∧
      (∃ d, black.contrast 0 = .ok d ∧ d.channels = nearest.channels) ∧
      ∃ d, black.contrast 1 = .ok d ∧ d.rgb = .ok (.replicate 1) := by
  intro black
  let inst : LightCurve ℚ := ⟨id⟩
  obtain ⟨start, goal, ratio, -, hgoal, hratio, ⟨d, hone, hextreme⟩, -, hfar⟩ :=
    contrast_readable (fun v hv => hv.1) black
  have hwhite : (black.contrast 1 >>= Color.rgb).toOption = some (.replicate 1) := by decide +kernel
  have hratio' : (black.contrastGoal >>= black.contrastWith).toOption = some 21 := by decide +kernel
  have hnear : (black.contrastGoal >>= black.nearestReadable).toOption.map Color.channels =
      some ⟨210, 751619277 / 2 ^ 32, 3543348019 / 2 ^ 32⟩ := by decide +kernel
  rw [hgoal] at hratio' hnear
  rw [hone] at hwhite
  change (black.contrastWith goal).toOption = _ at hratio'
  change (black.nearestReadable goal).toOption.map _ = _ at hnear
  change d.rgb.toOption = _ at hwhite
  rw [hratio] at hratio'
  obtain rfl : ratio = 21 := Option.some.inj hratio'
  obtain ⟨high, nearest, -, -, hnearest, -, hreadable, -, d', hzero, -, hchannels⟩ :=
    hfar (by norm_num)
  rw [hnearest] at hnear
  refine ⟨goal, nearest, hgoal, hnearest, hreadable, Option.some.inj hnear, ⟨d', hzero, hchannels⟩,
    d, hone, ?_⟩
  rcases hextreme with hrgb | hrgb
  · exact hrgb
  · rw [hrgb] at hwhite
    exact absurd hwhite (by decide +kernel)

end Color

end ColorMod
