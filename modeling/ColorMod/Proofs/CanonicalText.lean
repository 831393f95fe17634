import ColorMod.Proofs.Conversions
import ColorMod.Proofs.LayoutTexts
import ColorMod.Proofs.PrintedDoubles

/-!
# When a text is canonical

The text of a color with a finite hue resolves to a color again, and that color is written in the
same format.  It has the same text unless the first one shows a number at the very end of its range
that is not there: a hue as a full turn, or an alpha as full although the color does not cover fully
(`Layout.Canonical`).

* `toCss_eq`: a format lays out the channels of one space.
* `Layout.exists_reread`: a text, what it is read as, and when that is laid out alike.
* `Color.exists_reread_toCss`: the same for a color and a format.
-/

namespace ColorMod

open Scalar Written Double

/-! ## Formats and layouts -/

namespace ColorFormat

def layout : ColorFormat → Layout
  | legacy | rgbLegacy | hslLegacy => .commas
  | string | rgb | hsl | hwb => .spaces
  | hex => .hex

variable (format : ColorFormat) (c : Color Float)

theorem fits_spaceOf : format.layout.Fits (format.spaceOf c) := by
  cases format with
  | legacy =>
    change (if c.space = .hsl then ColorSpace.hsl else .rgb) ≠ .hwb
    split <;> decide
  | string => trivial
  | rgb => trivial
  | rgbLegacy => exact nofun
  | hsl => trivial
  | hslLegacy => exact nofun
  | hwb => trivial
  | hex => rfl

/-- A color of the space that a format writes is written in that space. -/
theorem spaceOf_of_space_eq {d : Color Float} (h : d.space = format.spaceOf c) :
    format.spaceOf d = format.spaceOf c := by
  cases format with
  | legacy =>
    change (if d.space = .hsl then ColorSpace.hsl else .rgb) = if c.space = .hsl then .hsl else .rgb
    rw [h, spaceOf]
    by_cases hspace : c.space = .hsl
    · rw [if_pos hspace, if_pos rfl]
    · rw [if_neg hspace, if_neg nofun]
  | string => exact h
  | rgb => rfl
  | rgbLegacy => rfl
  | hsl => rfl
  | hslLegacy => rfl
  | hwb => rfl
  | hex => rfl

end ColorFormat

theorem Color.toCss_eq (c : Color Float) (format : ColorFormat) :
    c.toCss format = (do
      return format.layout.text (format.spaceOf c) (← c.channelsIn (format.spaceOf c)) c.alpha) := by
  cases format with
  | legacy =>
    by_cases hspace : c.space = .hsl
    · have htext : c.toCss .legacy = toCss.hslLegacy c := if_pos hspace
      have hformat : ColorFormat.legacy.spaceOf c = .hsl := if_pos hspace
      rw [htext, hformat]
      rfl
    · have htext : c.toCss .legacy = toCss.rgbLegacy c := if_neg hspace
      have hformat : ColorFormat.legacy.spaceOf c = .rgb := if_neg hspace
      rw [htext, hformat]
      rfl
  | string =>
    obtain ⟨space, channels, alpha, hue⟩ := c
    cases space <;> rfl
  | rgb => rfl
  | rgbLegacy => rfl
  | hsl => rfl
  | hslLegacy => rfl
  | hwb => rfl
  | hex => rfl

/-! ## One layout -/

namespace Layout

/-- The text of a full alpha, if it were shown. -/
def fullText : Layout → String
  | spaces => "100%"
  | commas => "1"
  | hex => "ff"

/-- No number is shown as the end of its range without being there: an alpha that does not cover
fully is not shown as full, and a hue is not shown as a full turn. -/
structure Canonical (layout : Layout) (space : ColorSpace) (t : Triple Float) (alpha : Float) :
    Prop where
  alpha : ¬1 ≤ clamp alpha → layout.alphaText alpha ≠ layout.fullText
  hue : space ≠ .rgb → Written.hue t.first ≠ "360"

end Layout

section

variable {space : ColorSpace} {t : Triple Float}

theorem plain_rem_wheel (h : space ≠ .rgb → (value? t.first).isSome) (hspace : space ≠ .rgb) :
    Plain (rem t.first 360) := by
  obtain ⟨p, hp⟩ := Option.isSome_iff_exists.mp (h hspace)
  obtain ⟨q, hq, hq0, -⟩ := exists_rem_wheel hp
  exact ⟨q, hq, hq0⟩

/-- Channels are read as ones that are shown alike, unless the hue is shown as a full turn. -/
theorem exists_channelsRead_double {rgbReads : Float → Float → Prop} {rgbText : Float → String}
    (hrgb : ∀ x, ∃ y, rgbReads x y ∧ rgbText y = rgbText x)
    (hhue : space ≠ .rgb → (value? t.first).isSome) :
    ∃ u, ChannelsRead rgbReads space t u ∧ (space ≠ .rgb → (value? u.first).isSome) ∧
      (channels hue percentage rgbText space u = channels hue percentage rgbText space t ↔
        (space ≠ .rgb → hue t.first ≠ "360")) := by
  obtain ⟨s, hs, hs', -⟩ := exists_percentageReads_double t.second
  obtain ⟨l, hl, hl', -⟩ := exists_percentageReads_double t.third
  have hwheel : (value? t.first).isSome → ∃ h, HueReads t.first h ∧ (value? h).isSome ∧
      ((⟨hue h, percentage s, percentage l⟩ : Triple String) =
        ⟨hue t.first, percentage t.second, percentage t.third⟩ ↔ hue t.first ≠ "360") := by
    intro hfinite
    obtain ⟨h, hh, hfinite', hiff⟩ := exists_hueReads_double hfinite
    refine ⟨h, hh, hfinite', ?_⟩
    rw [hs', hl', Triple.ext_iff, ← hiff]
    exact ⟨fun h => h.1, fun h => ⟨h, rfl, rfl⟩⟩
  cases space with
  | rgb =>
    obtain ⟨r, hr, hr'⟩ := hrgb t.first
    obtain ⟨g, hg, hg'⟩ := hrgb t.second
    obtain ⟨b, hb, hb'⟩ := hrgb t.third
    refine ⟨⟨r, g, b⟩, ⟨hr, hg, hb⟩, fun h => absurd rfl h, ?_⟩
    exact iff_of_true (Triple.ext hr' hg' hb') fun h => absurd rfl h
  | hsl =>
    obtain ⟨h, hh, hfinite, hiff⟩ := hwheel (hhue nofun)
    exact ⟨⟨h, s, l⟩, ⟨hh, hs, hl⟩, fun _ => hfinite, hiff.trans ⟨fun h _ => h, fun h => h nofun⟩⟩
  | hwb =>
    obtain ⟨h, hh, hfinite, hiff⟩ := hwheel (hhue nofun)
    exact ⟨⟨h, s, l⟩, ⟨hh, hs, hl⟩, fun _ => hfinite, hiff.trans ⟨fun h _ => h, fun h => h nofun⟩⟩

/-- Alpha is read as one that is shown alike; it covers fully just when the first one does or is
shown so. -/
theorem Layout.exists_alphaRereads (layout : Layout) (alpha : Float) : ∃ a,
    layout.AlphaRereads alpha a ∧
    (¬1 ≤ clamp alpha → layout.alphaText a = layout.alphaText alpha) ∧
    (1 ≤ clamp a ↔ 1 ≤ clamp alpha ∨ layout.alphaText alpha = layout.fullText) := by
  by_cases hcover : 1 ≤ clamp alpha
  · have hone : (1 : Float) ≤ clamp 1 := by decide +kernel
    refine ⟨1, ?_, fun hne => absurd hcover hne, iff_of_true hone (.inl hcover)⟩
    exact (if_pos hcover).mpr rfl
  · simp only [AlphaRereads, hcover, if_false, not_false_eq_true, forall_const, false_or]
    cases layout with
    | spaces =>
      obtain ⟨a, ha, hsame, hfull⟩ := exists_percentageReads_double (clamp alpha)
      refine ⟨a, ha, ?_, hfull⟩
      change percentage (clamp a) = percentage (clamp alpha)
      rw [← hsame, percentage, percentage, clamp_clamp_double]
    | commas => exact exists_alphaReads_double alpha
    | hex =>
      have hlt := byte_lt_double alpha
      have hff : ∀ n < 256, String.ofList (Text.hexDigits 2 n) = "ff" ↔ n = 255 := by
        decide +kernel
      refine ⟨channelOfByte (byte alpha), rfl, ?_, ?_⟩
      · change hexByte _ = hexByte _
        rw [hexByte, hexByte, byte_channelOfByte hlt]
      · exact (one_le_clamp_channelOfByte_iff hlt).trans (hff _ hlt).symm

/-- What a text is read as is laid out in the same text just when the text is canonical. -/
theorem Layout.exists_reread (layout : Layout) (hfits : layout.Fits space)
    (hhue : space ≠ .rgb → (value? t.first).isSome) (alpha : Float) :
    ∃ u a, layout.Rereads space t alpha u a ∧
      (layout.text space u a = layout.text space t alpha ↔ layout.Canonical space t alpha) := by
  obtain ⟨a, ha, hsame, hcover⟩ := layout.exists_alphaRereads alpha
  obtain ⟨u, hu, hfinite, hchannels⟩ : ∃ u, layout.ChannelsReread space t u ∧
      (space ≠ .rgb → (value? u.first).isSome) ∧
      (layout.channelTexts space u = layout.channelTexts space t ↔
        (space ≠ .rgb → hue t.first ≠ "360")) := by
    cases layout with
    | spaces =>
      refine exists_channelsRead_double (fun x => ?_) hhue
      obtain ⟨y, hy, hy', -⟩ := exists_percentageReads_double x
      exact ⟨y, hy, hy'⟩
    | commas =>
      refine exists_channelsRead_double (fun x => ⟨_, rfl, ?_⟩) hhue
      rw [byte_channelOfByte (byte_lt_double x)]
    | hex =>
      obtain rfl : space = .rgb := hfits
      refine ⟨_, rfl, fun h => absurd rfl h, iff_of_true ?_ fun h => absurd rfl h⟩
      have hbyte : ∀ x : Float, hexByte (channelOfByte (byte x) : Float) = hexByte x := by
        intro x
        rw [hexByte, hexByte, byte_channelOfByte (byte_lt_double x)]
      exact Triple.ext (hbyte _) (hbyte _) (hbyte _)
  refine ⟨u, a, ⟨hu, ha⟩, ?_⟩
  rw [Layout.text_eq_iff (plain_rem_wheel hhue) (plain_rem_wheel hfinite)]
  constructor
  · rintro ⟨hsame', hcovers, -⟩
    refine ⟨fun hne hfull => hne (hcovers.mp (hcover.mpr (.inr hfull))), hchannels.mp hsame'⟩
  · rintro ⟨halpha, hturn⟩
    refine ⟨hchannels.mpr hturn, ⟨fun h => ?_, fun h => hcover.mpr (.inl h)⟩, hsame⟩
    by_contra hne
    exact (hcover.mp h).elim hne (halpha hne)

end

/-! ## Colors and formats -/

theorem Color.isSome_hue_ofChannels {space : ColorSpace} {channels : Triple Float} {kept : Float}
    (hkept : (value? kept).isSome) (hhue : space ≠ .rgb → (value? channels.first).isSome)
    (alpha : Float) : (value? (Color.ofChannels space channels alpha kept).hue).isSome := by
  cases space with
  | rgb => exact isSome_hueOfRgb hkept channels
  | hsl => exact hhue nofun
  | hwb => exact hhue nofun

/-- A color whose hue is finite is written in a format as long as it converts to the space of the
format.  The text resolves to a color that is written in the same format again, and both texts are
the same just when the first one is canonical. -/
theorem Color.exists_reread_toCss (space : ColorSpace) (channels : Triple Float) {kept : Float}
    (hkept : (value? kept).isSome) (hhue : space ≠ .rgb → (value? channels.first).isSome)
    (alpha : Float) (format : ColorFormat) :
    let c := Color.ofChannels space channels alpha kept
    let target := format.spaceOf c
    ((c.toCss format).isOk ↔ c.Converts target) ∧
      ∀ t, c.channelsIn target = .ok t →
        ∃ text d again, c.toCss format = .ok text ∧
          (∀ ctx : Context Float, ctx.tooDeep = false →
            resolveColor (Node.ofText text) ctx = pure (.ok d)) ∧
          d.toCss format = .ok again ∧
          (again = text ↔ format.layout.Canonical target t alpha) := by
  intro c target
  refine ⟨c.toCss_isOk_iff format, fun t ht => ?_⟩
  have hfits := format.fits_spaceOf c
  have hfinite : target ≠ .rgb → (value? t.first).isSome := fun htarget =>
    isSome_first_channelsIn (isSome_hue_ofChannels hkept hhue alpha) hhue htarget ht
  obtain ⟨u, a, hreads, hsame⟩ := format.layout.exists_reread hfits hfinite alpha
  have hplain : target ≠ .rgb → Plain (rem t.first 360) := plain_rem_wheel hfinite
  let d : Color Float := .ofChannels target u a
  have hspace : format.spaceOf d = target := format.spaceOf_of_space_eq c rfl
  have hown : d.channelsIn target = .ok u := d.channelsIn_space
  refine ⟨_, d, format.layout.text target u a, ?_, fun ctx hdeep =>
    Layout.resolveColor_ofText_text hfits hplain hreads hdeep, ?_, hsame⟩
  · rw [c.toCss_eq, ht]
    rfl
  · rw [d.toCss_eq, hspace, hown]
    rfl

/-- A hue just below a full turn and an alpha just below one: both are rounded up in the text, and
neither is read back as it was. -/
theorem Color.exists_reread_toCss_fullTurn :
    let c : Color Float := .ofChannels .hsl ⟨359.99999999999, 0.5, 0.5⟩ 0.9999999999999 0
    (value? (0 : Float)).isSome ∧ (value? (359.99999999999 : Float)).isSome ∧
      c.toCss .hsl = .ok "hsl(360 50% 50% / 100%)" ∧
      ∃ d again, (∀ ctx : Context Float, ctx.tooDeep = false →
          resolveColor (Node.ofText "hsl(360 50% 50% / 100%)") ctx = pure (.ok d)) ∧
        d.toCss .hsl = .ok again ∧ again ≠ "hsl(360 50% 50% / 100%)" := by
  intro c
  have hkept : (value? (0 : Float)).isSome := by decide +kernel
  have hhue : (value? (359.99999999999 : Float)).isSome := by decide +kernel
  have hprinted : c.toCss .hsl = .ok "hsl(360 50% 50% / 100%)" := by decide +kernel
  have hturn : Written.hue (359.99999999999 : Float) = "360" := by decide +kernel
  obtain ⟨-, hreread⟩ := Color.exists_reread_toCss .hsl ⟨359.99999999999, 0.5, 0.5⟩ hkept
    (fun _ => hhue) 0.9999999999999 .hsl
  obtain ⟨text, d, again, htext, hcolor, hagain, hsame⟩ := hreread _ rfl
  cases htext.symm.trans hprinted
  exact ⟨hkept, hhue, hprinted, d, again, hcolor, hagain,
    fun heq => (hsame.mp heq).hue nofun hturn⟩

end ColorMod
