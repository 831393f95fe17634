import ColorMod.Proofs.ColorWheel

/-!
# A color on its way through the spaces

In exact arithmetic a color can go from space to space along any path.  It keeps its rgb channels
and its alpha, and its hue up to whole turns; a gray keeps the very hue that it remembers.

* `Color.Sound`: what holds of every color as it is built, with `Color.Sound.inSpace` for one step.
* `exists_channelsIn`: a conversion ends inside of the space that it leads to.
* `exists_foldlM_inSpace`: the whole way.
-/

namespace ColorMod

open Scalar

/-! ## Where a conversion ends -/

/-- The channels lie inside of the space, apart from the hue, which may be any number. -/
def Triple.Inside (t : Triple ℚ) : ColorSpace → Prop
  | .rgb => t.InUnit
  | .hsl | .hwb => (0 ≤ t.second ∧ t.second ≤ 1) ∧ (0 ≤ t.third ∧ t.third ≤ 1)

theorem InnerInterval.inUnit_spread {chroma base : ℚ} (h : InnerInterval chroma base) (hue : ℚ) :
    ((pureColor (sixthsOfHue hue)).spread chroma base).InUnit :=
  (inUnit_pureColor (sixthsOfHue_mem hue)).spread h.chroma_nonneg h.base_nonneg h.top_le_one

theorem inside_hslOfRgb (kept : ℚ) (t : Triple ℚ) :
    ∃ u, hslOfRgb kept t = .ok u ∧ u.Inside .hsl := by
  have hunit := Triple.inUnit_map_clamp t
  have h0 := hunit.smallest_nonneg
  have h1 := hunit.largest_le_one
  have hle := (t.map clamp).smallest_le_largest
  refine ⟨_, hslOfRgb_eq kept t, saturationOfRgb_mem hunit, ?_, ?_⟩
  · dsimp only
    linarith
  · dsimp only
    linarith

theorem inside_hwbOfRgb (kept : ℚ) (t : Triple ℚ) : (hwbOfRgb kept t).Inside .hwb := by
  have hunit := Triple.inUnit_map_clamp t
  have h0 := hunit.smallest_nonneg
  have h1 := hunit.largest_le_one
  have hle := (t.map clamp).smallest_le_largest
  refine ⟨⟨h0, hle.trans h1⟩, ?_, ?_⟩
  · change 0 ≤ 1 - _
    linarith
  · change 1 - _ ≤ (1 : ℚ)
    linarith

theorem inside_rgbOfHsl (hsl : Triple ℚ) : ∃ t, rgbOfHsl hsl = .ok t ∧ t.InUnit := by
  obtain ⟨chroma, base, hinner, heq⟩ := exists_rgbOfHsl hsl
  exact ⟨_, heq, hinner.inUnit_spread _⟩

theorem inside_rgbOfHwb (hwb : Triple ℚ) : ∃ t, rgbOfHwb hwb = .ok t ∧ t.InUnit := by
  obtain ⟨chroma, base, hinner, heq⟩ := exists_rgbOfHwb hwb
  exact ⟨_, heq, hinner.inUnit_spread _⟩

namespace Color

section

variable {α : Type} [Scalar α] {c : Color α}

/-- In its own space a color has its own channels. -/
theorem channelsIn_space (c : Color α) : c.channelsIn c.space = .ok c.channels := by
  obtain ⟨space, channels, alpha, hue⟩ := c
  cases space <;> rfl

theorem inSpace_of_ne {space : ColorSpace} (h : space ≠ c.space) {t : Triple α}
    (ht : c.channelsIn space = .ok t) : c.inSpace space = .ok (ofChannels space t c.alpha c.hue) := by
  rw [inSpace, if_neg h, ht]
  rfl

theorem hsl_of_ne (h : .hsl ≠ c.space) : c.hsl = (do hslOfRgb c.hue (← c.rgb)) := by
  unfold hsl
  split
  · next hspace => exact absurd hspace.symm h
  · rfl

theorem hwb_of_ne (h : .hwb ≠ c.space) : c.hwb = (do return hwbOfRgb c.hue (← c.rgb)) := by
  unfold hwb
  split
  · next hspace => exact absurd hspace.symm h
  · rfl

end

/-- Any color has rgb channels, and those of another space lie in the unit interval. -/
theorem exists_rgb (c : Color ℚ) : ∃ t, c.rgb = .ok t ∧ (c.space ≠ .rgb → t.InUnit) := by
  obtain ⟨space, channels, alpha, hue⟩ := c
  cases space with
  | rgb => exact ⟨channels, rfl, fun h => absurd rfl h⟩
  | hsl =>
    obtain ⟨t, heq, ht⟩ := inside_rgbOfHsl channels
    exact ⟨t, heq, fun _ => ht⟩
  | hwb =>
    obtain ⟨t, heq, ht⟩ := inside_rgbOfHwb channels
    exact ⟨t, heq, fun _ => ht⟩

/-- A conversion never fails and ends inside of the space that it leads to. -/
theorem exists_channelsIn (c : Color ℚ) {space : ColorSpace} (hspace : space ≠ c.space) :
    ∃ u, c.channelsIn space = .ok u ∧ u.Inside space := by
  obtain ⟨t, ht, hinside⟩ := c.exists_rgb
  cases space with
  | rgb => exact ⟨t, ht, hinside hspace.symm⟩
  | hsl =>
    obtain ⟨u, heq, hu⟩ := inside_hslOfRgb c.hue t
    refine ⟨u, ?_, hu⟩
    rw [channelsIn, hsl_of_ne hspace, ht]
    exact heq
  | hwb =>
    refine ⟨_, ?_, inside_hwbOfRgb c.hue t⟩
    rw [channelsIn, hwb_of_ne hspace, ht]
    rfl

/-! ## The hue -/

/-- A color as it is built: rgb channels lie in the unit interval and keep a hue for a gray only,
the other spaces have the hue among their channels. -/
structure Sound (c : Color ℚ) : Prop where
  inUnit : c.space = .rgb → c.channels.InUnit
  hueOfRgb_eq : c.space = .rgb → hueOfRgb c.hue c.channels = c.hue
  first_eq : c.space ≠ .rgb → c.channels.first = c.hue

theorem sound_ofChannels {space : ColorSpace} {channels : Triple ℚ}
    (h : space = .rgb → channels.InUnit) (alpha kept : ℚ) :
    (ofChannels space channels alpha kept).Sound where
  inUnit := h
  hueOfRgb_eq := by
    rintro rfl
    exact hueOfRgb_hueOfRgb kept channels
  first_eq hspace := by
    cases space with
    | rgb => exact absurd rfl hspace
    | hsl => rfl
    | hwb => rfl

/-- The hue of a pure color that is spread, given its hue to keep, is that hue up to whole turns. -/
theorem hueOfRgb_spread_modEq {chroma base : ℚ} (h : InnerInterval chroma base) (hue : ℚ) :
    hueOfRgb hue ((pureColor (sixthsOfHue hue)).spread chroma base) ≡ hue [PMOD 360] := by
  rcases h.chroma_nonneg.eq_or_lt with rfl | hpos
  · have hgray : ((pureColor (sixthsOfHue hue)).spread 0 base).largest =
        ((pureColor (sixthsOfHue hue)).spread 0 base).smallest := by
      rw [Triple.largest_spread _ le_rfl, Triple.smallest_spread _ le_rfl, mul_zero, mul_zero]
    rw [hueOfRgb_of_gray hue (h.inUnit_spread hue) hgray]
  · rw [hueOfRgb_spread hue (sixthsOfHue_mem hue) hpos h.base_nonneg h.top_le_one]
    exact sixty_mul_sixthsOfHue hue

section

variable {c : Color ℚ}

theorem Sound.exists_rgb (h : c.Sound) :
    ∃ t, c.rgb = .ok t ∧ t.InUnit ∧ hueOfRgb c.hue t ≡ c.hue [PMOD 360] := by
  obtain ⟨space, channels, alpha, hue⟩ := c
  cases space with
  | rgb => exact ⟨channels, rfl, h.inUnit rfl, by rw [h.hueOfRgb_eq rfl]⟩
  | hsl =>
    obtain ⟨chroma, base, hinner, heq⟩ := exists_rgbOfHsl channels
    obtain rfl : channels.first = hue := h.first_eq nofun
    exact ⟨_, heq, hinner.inUnit_spread _, hueOfRgb_spread_modEq hinner _⟩
  | hwb =>
    obtain ⟨chroma, base, hinner, heq⟩ := exists_rgbOfHwb channels
    obtain rfl : channels.first = hue := h.first_eq nofun
    exact ⟨_, heq, hinner.inUnit_spread _, hueOfRgb_spread_modEq hinner _⟩

/-- What reading the hue of a color gives. -/
theorem Sound.exists_get_hue (h : c.Sound) {t : Triple ℚ} (ht : c.rgb = .ok t) :
    ∃ hue, c.get .hue = .ok hue ∧ hue ≡ c.hue [PMOD 360] ∧
      (t.largest = t.smallest → hue = c.hue) := by
  obtain ⟨_, ht', hunit, hhue⟩ := h.exists_rgb
  cases ht.symm.trans ht'
  obtain ⟨space, channels, alpha, hue⟩ := c
  cases space with
  | rgb => exact ⟨hue, rfl, AddCommGroup.modEq_refl _, fun _ => rfl⟩
  | hsl =>
    have hfirst : channels.first = hue := h.first_eq nofun
    exact ⟨channels.first, rfl, by rw [hfirst], fun _ => hfirst⟩
  | hwb =>
    refine ⟨hueOfRgb hue t, ?_, hhue, hueOfRgb_of_gray hue hunit⟩
    change (do return (← (do hslOfRgb hue (← rgbOfHwb channels))).get 0) = _
    have hrgb : rgbOfHwb channels = .ok t := ht
    rw [hrgb]
    change (do return (← hslOfRgb hue t).get 0) = _
    rw [hslOfRgb_eq, hunit.map_clamp]
    rfl

/-! ## One step and the whole way -/

/-- The two colors have the same rgb channels and alpha, and the same hue up to whole turns; grays
have the same hue. -/
structure Alike (c d : Color ℚ) : Prop where
  rgb : d.rgb = c.rgb
  alpha : d.alpha = c.alpha
  hue : d.hue ≡ c.hue [PMOD 360]
  hue_of_gray : ∀ t, c.rgb = .ok t → t.largest = t.smallest → d.hue = c.hue

theorem Alike.refl (c : Color ℚ) : c.Alike c :=
  ⟨rfl, rfl, AddCommGroup.modEq_refl _, fun _ _ _ => rfl⟩

theorem Alike.trans {c d e : Color ℚ} (hcd : c.Alike d) (hde : d.Alike e) : c.Alike e where
  rgb := hde.rgb.trans hcd.rgb
  alpha := hde.alpha.trans hcd.alpha
  hue := hde.hue.trans hcd.hue
  hue_of_gray t ht hgray :=
    (hde.hue_of_gray t (hcd.rgb.trans ht) hgray).trans (hcd.hue_of_gray t ht hgray)

/-- The channels of a sound color in another space lead back to its rgb channels. -/
theorem Sound.rgb_ofChannels (h : c.Sound) {space : ColorSpace} (hspace : space ≠ c.space)
    {u : Triple ℚ} (hu : c.channelsIn space = .ok u) :
    (ofChannels space u c.alpha c.hue).rgb = c.rgb := by
  obtain ⟨t, ht, hunit, -⟩ := h.exists_rgb
  rw [ht]
  cases space with
  | rgb => exact hu.symm.trans ht
  | hsl =>
    rw [channelsIn, hsl_of_ne hspace, ht] at hu
    have hback := rgbOfHsl_hslOfRgb c.hue hunit
    rw [show hslOfRgb c.hue t = .ok u from hu] at hback
    exact hback
  | hwb =>
    rw [channelsIn, hwb_of_ne hspace, ht] at hu
    cases hu
    exact rgbOfHwb_hwbOfRgb c.hue hunit

/-- The hue of a sound color in another space. -/
theorem Sound.hue_ofChannels (h : c.Sound) {space : ColorSpace} (hspace : space ≠ c.space)
    {u t : Triple ℚ} (hu : c.channelsIn space = .ok u) (ht : c.rgb = .ok t) :
    (ofChannels space u c.alpha c.hue).hue = hueOfRgb c.hue t := by
  obtain ⟨_, ht', hunit, -⟩ := h.exists_rgb
  cases ht.symm.trans ht'
  cases space with
  | rgb =>
    cases hu.symm.trans ht
    rfl
  | hsl =>
    rw [channelsIn, hsl_of_ne hspace, ht] at hu
    cases (hslOfRgb_eq c.hue t).symm.trans hu
    change hueOfRgb c.hue (t.map clamp) = _
    rw [hunit.map_clamp]
  | hwb =>
    rw [channelsIn, hwb_of_ne hspace, ht] at hu
    cases hu
    change hueOfRgb c.hue (t.map clamp) = _
    rw [hunit.map_clamp]

/-- A step to another space leads to a color that is alike. -/
theorem Sound.inSpace (h : c.Sound) (space : ColorSpace) :
    ∃ d, c.inSpace space = .ok d ∧ d.Sound ∧ c.Alike d := by
  by_cases hspace : space = c.space
  · exact ⟨c, if_pos hspace, h, .refl c⟩
  · obtain ⟨u, hu, hinside⟩ := c.exists_channelsIn hspace
    obtain ⟨t, ht, hunit, hhue⟩ := h.exists_rgb
    have hhue' := h.hue_ofChannels hspace hu ht
    have hsound : (ofChannels space u c.alpha c.hue).Sound :=
      sound_ofChannels (fun hrgb => by subst hrgb; exact hinside) ..
    refine ⟨_, inSpace_of_ne hspace hu, hsound, h.rgb_ofChannels hspace hu, rfl, ?_,
      fun t' ht' hgray => ?_⟩
    · rw [hhue']
      exact hhue
    · cases ht.symm.trans ht'
      rw [hhue', hueOfRgb_of_gray _ hunit hgray]

theorem Sound.foldlM_inSpace (h : c.Sound) (path : List ColorSpace) :
    ∃ d, path.foldlM Color.inSpace c = .ok d ∧ d.Sound ∧ c.Alike d := by
  induction path generalizing c with
  | nil => exact ⟨c, rfl, h, .refl c⟩
  | cons space path ih =>
    obtain ⟨d, hd, hsound, halike⟩ := h.inSpace space
    obtain ⟨e, he, hsound', halike'⟩ := ih hsound
    refine ⟨e, ?_, hsound', halike.trans halike'⟩
    rw [List.foldlM_cons, hd]
    exact he

end

/-- No conversion fails, and each ends inside of the space that it leads to.  A color taken along a
path of spaces keeps its rgb channels and its alpha.  Its hue stays the same up to whole turns, and
the same number when the color is a gray. -/
theorem exists_foldlM_inSpace {space : ColorSpace} {channels : Triple ℚ}
    (hrgb : space = .rgb → channels.InUnit) (alpha kept : ℚ) (path : List ColorSpace) :
    let c := ofChannels space channels alpha kept
    (∀ (e : Color ℚ) (target : ColorSpace), target ≠ e.space →
      ∃ u, e.channelsIn target = .ok u ∧ u.Inside target) ∧
    ∃ d t hue hue', path.foldlM Color.inSpace c = .ok d ∧
      c.rgb = .ok t ∧ d.rgb = .ok t ∧ d.alpha = alpha ∧
      c.get .hue = .ok hue ∧ d.get .hue = .ok hue' ∧ hue' ≡ hue [PMOD 360] ∧
      (t.largest = t.smallest → hue' = hue) := by
  intro c
  refine ⟨fun e _ => e.exists_channelsIn, ?_⟩
  have hc : c.Sound := sound_ofChannels hrgb alpha kept
  obtain ⟨t, ht, -⟩ := hc.exists_rgb
  obtain ⟨d, hd, hsound, halike⟩ := hc.foldlM_inSpace path
  have ht' := halike.rgb.trans ht
  obtain ⟨hue, hget, hmod, hgray⟩ := hc.exists_get_hue ht
  obtain ⟨hue', hget', hmod', hgray'⟩ := hsound.exists_get_hue ht'
  refine ⟨d, t, hue, hue', hd, ht, ht', halike.alpha, hget, hget',
    (hmod'.trans halike.hue).trans hmod.symm, fun h => ?_⟩
  rw [hgray' h, halike.hue_of_gray t ht h, hgray h]

/-- A gray goes through all of the spaces and comes back with the hue that it was given. -/
theorem exists_foldlM_inSpace_gray :
    ∃ d : Color ℚ,
      [.hsl, .hwb, .rgb].foldlM Color.inSpace (ofChannels .rgb (.replicate 0.5) 1 210) = .ok d ∧
      d.rgb = .ok (.replicate 0.5) ∧ d.get .hue = .ok 210 := by
  have hunit : (Triple.replicate (0.5 : ℚ)).InUnit := by
    constructor <;> norm_num [Triple.replicate]
  have hgray : (Triple.replicate (0.5 : ℚ)).largest = (Triple.replicate (0.5 : ℚ)).smallest := by
    decide +kernel
  obtain ⟨-, d, t, hue, hue', hd, ht, ht', -, hget, hget', -, hsame⟩ :=
    @exists_foldlM_inSpace .rgb _ (fun _ => hunit) 1 210 [.hsl, .hwb, .rgb]
  cases ht
  have hhue : hueOfRgb 210 (Triple.replicate (0.5 : ℚ)) = hue := Except.ok.inj hget
  rw [hueOfRgb_of_gray 210 hunit hgray] at hhue
  refine ⟨d, hd, ht', ?_⟩
  rw [hget', hsame hgray, ← hhue]

end Color

end ColorMod
