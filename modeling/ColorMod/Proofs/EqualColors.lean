import ColorMod.Proofs.EqualDoubles
import ColorMod.Proofs.Likeness

/-!
# Equal colors

Equality of colors does not look at the hue that they remember.  Equal colors remember the same hue
unless they are grays in rgb, and colors that remember the same hue are led to equal ones by every
operation.  Equal grays are led to equal colors as long as nothing asks for their hue.

* `Color.Agrees`, `Color.SameGray`: equal colors with the same hue, and equal grays in rgb.
* `Agrees.endsAlike_after`, `AgreesButHue.endsAlike_after`: what operations make of them.
* `equal_colors_agree`: what can be told of equal colors, and of what operations make of them.
* `equal_grays_differ`: equal grays that are not equal in hsl.
-/

namespace ColorMod

open Scalar Double

/-- Doubles are alike when they are the same or both zero, as channels and as hues. -/
def sameDoubles : Likeness Float where
  Turn := Unit
  still := ()
  channel := Agree
  hue _ := Agree
  channel_refl := .refl
  hue_refl := .refl
  clamp_eq h := h.clamp_eq
  rem_eq h := h.rem_eq 360
  channel_between share h h' := h.between share h'
  hue_between share h h' := h.between share h'

instance : Subsingleton sameDoubles.Turn :=
  inferInstanceAs (Subsingleton Unit)

theorem first_sameDoubles (space : ColorSpace) (k : sameDoubles.Turn) :
    sameDoubles.first space k = Agree := by
  cases space <;> rfl

/-! ## Equal colors that remember the same hue -/

namespace Color

/-- The colors are equal, and so is the hue that they remember, up to numbers that are none. -/
structure Agrees (c d : Color Float) : Prop where
  space_eq : c.space = d.space
  first : Agree c.channels.first d.channels.first
  second : Agree c.channels.second d.channels.second
  third : Agree c.channels.third d.channels.third
  alpha : Agree c.alpha d.alpha
  hue : Agree c.hue d.hue

variable {c d : Color Float}

theorem relates_sameDoubles_iff : sameDoubles.Relates c d ↔ c.Agrees d := by
  constructor
  · rintro ⟨k, hspace, ⟨hfirst, hsecond, hthird⟩, halpha, hhue⟩
    rw [first_sameDoubles] at hfirst
    exact ⟨hspace, hfirst, hsecond, hthird, halpha, hhue⟩
  · rintro ⟨hspace, hfirst, hsecond, hthird, halpha, hhue⟩
    refine ⟨sameDoubles.still, hspace, ⟨?_, hsecond, hthird⟩, halpha, hhue⟩
    rwa [first_sameDoubles]

namespace Agrees

theorem endsAlike_apply (h : c.Agrees d) (operation : Operation Float) :
    EndsAlike Agrees (c.apply operation) (d.apply operation) := by
  have hlike : EndsAlike sameDoubles.Relates (c.apply operation) (d.apply operation) :=
    (relates_sameDoubles_iff.mpr h).endsAlike_apply fun _ _ _ _ _ => .inr inferInstance
  exact hlike.mono fun _ _ => relates_sameDoubles_iff.mp

/-- Operations lead from colors that agree to colors that agree. -/
theorem endsAlike_after (h : c.Agrees d) (operations : List (Operation Float)) :
    EndsAlike Agrees (c.after operations) (d.after operations) := by
  induction operations generalizing c d with
  | nil => exact .ok h
  | cons operation operations ih => exact (h.endsAlike_apply operation).bind fun _ _ => ih

theorem endsAlike_get (h : c.Agrees d) (channel : Channel) :
    EndsAlike Agree (c.get channel) (d.get channel) := by
  have hrelates := relates_sameDoubles_iff.mpr h
  by_cases hhue : channel = .hue
  · subst hhue
    exact hrelates.endsAlike_get_hue.mono fun x y hxy => hxy.choose_spec
  · exact hrelates.endsAlike_get hhue

theorem toCss_eq (h : c.Agrees d) (format : ColorFormat) : c.toCss format = d.toCss format :=
  (relates_sameDoubles_iff.mpr h).toCss_eq format

end Agrees

end Color

/-! ## Grays -/

/-- The channels of a color in rgb that has no hue of its own. -/
def Triple.IsGray (rgb : Triple Float) : Prop :=
  (rgb.map clamp).largest - (rgb.map clamp).smallest == 0

/-- Only a gray keeps a hue. -/
theorem hueOfRgb_of_not_isGray {t : Triple Float} (h : ¬t.IsGray) (kept kept' : Float) :
    hueOfRgb kept t = hueOfRgb kept' t :=
  (if_neg h).trans (if_neg h).symm

/-- A gray is stored in hwb without a place for its hue: whiteness and blackness fill it up. -/
theorem rgbOfHwb_hwbOfRgb_of_isGray {t : Triple Float} (h : t.IsGray) (kept kept' : Float) :
    rgbOfHwb (hwbOfRgb kept t) = rgbOfHwb (hwbOfRgb kept' t) := by
  obtain ⟨p, hp, hp0, hp1⟩ := exists_clamp t.first
  obtain ⟨q, hq, hq0, hq1⟩ := exists_clamp t.second
  obtain ⟨r, hr, hr0, hr1⟩ := exists_clamp t.third
  have hhigh : exactValue? (t.map clamp).largest = some (max (max p q) r) := by
    rw [← larger_eq_max, ← larger_eq_max]
    exact exactValue?_larger (exactValue?_larger hp hq) hr
  have hlow : exactValue? (t.map clamp).smallest = some (min (min p q) r) := by
    rw [← smaller_eq_min, ← smaller_eq_min]
    exact exactValue?_smaller (exactValue?_smaller hp hq) hr
  have hmax : max (max p q) r ≤ 1 := max_le (max_le hp1 hq1) hr1
  have hmin : 0 ≤ min (min p q) r := le_min (le_min hp0 hq0) hr0
  have hle : min (min p q) r ≤ max (max p q) r := by simp
  have heq : max (max p q) r = min (min p q) r := by
    refine eq_of_sub_beq_zero hhigh hlow (abs_lt_of_le (b := 1) ?_ (by norm_num)) h
    rw [abs_le]
    constructor <;> linarith
  have hclamp : exactValue? (clamp (t.map clamp).smallest) = some (min (min p q) r) := by
    rw [exactValue?_clamp hlow, clamp, clampTo, larger_eq_max, smaller_eq_min,
      min_eq_right (hle.trans hmax), max_eq_right hmin]
  rw [heq] at hhigh
  have hfull := one_le_add_sub hclamp hhigh hmin (hle.trans hmax)
  have hfilled (kept : Float) : rgbOfHwb (hwbOfRgb kept t) = .ok (.replicate
      (clamp (t.map clamp).smallest /
        (clamp (t.map clamp).smallest + clamp (1 - (t.map clamp).largest)))) :=
    if_pos hfull
  rw [hfilled, hfilled]

namespace Color

/-- The colors are grays in rgb that may remember different hues. -/
structure SameGray (c d : Color Float) : Prop where
  space_left : c.space = .rgb
  space_right : d.space = .rgb
  first : Agree c.channels.first d.channels.first
  second : Agree c.channels.second d.channels.second
  third : Agree c.channels.third d.channels.third
  alpha : Agree c.alpha d.alpha
  isGray : c.channels.IsGray

/-- The colors agree, or but for the hue of a gray. -/
def AgreesButHue (c d : Color Float) : Prop :=
  c.Agrees d ∨ c.SameGray d

theorem rgb_of_space {c : Color Float} (h : c.space = .rgb) : c.rgb = .ok c.channels := by
  rw [Color.rgb, h]

/-- In rgb the hue that is kept counts for a gray only. -/
theorem agreesButHue_ofChannels {s t : Triple Float} {a b : Float}
    (h : sameDoubles.Channels .rgb sameDoubles.still s t) (ha : Agree a b) (k l : Float) :
    (ofChannels .rgb s a k).AgreesButHue (ofChannels .rgb t b l) := by
  by_cases hgray : s.IsGray
  · exact .inr ⟨rfl, rfl, h.first, h.second, h.third, ha, hgray⟩
  · refine .inl ⟨rfl, h.first, h.second, h.third, ha, .inl ?_⟩
    change hueOfRgb k s = hueOfRgb l t
    rw [hueOfRgb_of_not_isGray hgray k l, hueOfRgb, hueOfRgb, h.map_clamp]

variable {c d : Color Float}

/-- Equal colors agree but for the hue of grays. -/
theorem agreesButHue_of_beq (hc : c.IsMade) (hd : d.IsMade) (h : c == d) : c.AgreesButHue d := by
  have hstored : (decide (c.space = d.space) &&
    (c.channels.first == d.channels.first && c.channels.second == d.channels.second &&
      c.channels.third == d.channels.third) && c.alpha == d.alpha) = true := h
  simp only [Bool.and_eq_true, decide_eq_true_eq] at hstored
  obtain ⟨⟨hspace, ⟨hfirst, hsecond⟩, hthird⟩, halpha⟩ := hstored
  have hfirst := agree_of_beq hfirst
  have hsecond := agree_of_beq hsecond
  have hthird := agree_of_beq hthird
  have halpha := agree_of_beq halpha
  obtain ⟨space, s, a, k, rfl⟩ := hc
  obtain ⟨space', t, b, l, rfl⟩ := hd
  obtain rfl : space = space' := hspace
  cases space with
  | rgb => exact agreesButHue_ofChannels ⟨hfirst, hsecond, hthird⟩ halpha k l
  | hsl => exact .inl ⟨rfl, hfirst, hsecond, hthird, halpha, hfirst⟩
  | hwb => exact .inl ⟨rfl, hfirst, hsecond, hthird, halpha, hfirst⟩

/-- What agrees is equal if it is a number. -/
theorem AgreesButHue.beq_iff (h : c.AgreesButHue d) : c == d ↔ c == c := by
  have hstored : c.space = d.space ∧ Agree c.channels.first d.channels.first ∧
      Agree c.channels.second d.channels.second ∧ Agree c.channels.third d.channels.third ∧
      Agree c.alpha d.alpha := by
    rcases h with h | h
    · exact ⟨h.space_eq, h.first, h.second, h.third, h.alpha⟩
    · exact ⟨h.space_left.trans h.space_right.symm, h.first, h.second, h.third, h.alpha⟩
  obtain ⟨hspace, hfirst, hsecond, hthird, halpha⟩ := hstored
  have hbeq (e : Color Float) : (c == e) = (decide (c.space = e.space) &&
    (c.channels.first == e.channels.first && c.channels.second == e.channels.second &&
      c.channels.third == e.channels.third) && c.alpha == e.alpha) := rfl
  rw [hbeq, hbeq, hspace]
  simp only [Bool.and_eq_true, hfirst.beq_iff, hsecond.beq_iff, hthird.beq_iff, halpha.beq_iff,
    decide_true]

end Color

/-! ## Grays that remember different hues -/

/-- The operation asks for the hue of a gray: the color that it leads to is not stored in rgb, and its
hue is not a new one. -/
def Operation.usesGrayHue {α : Type} : Operation α → Bool
  | .set channel _ => channel ∈ [.saturation, .lightness, .whiteness, .blackness]
  | .inSpace space | .mix _ _ space _ => space ≠ .rgb
  | .contrast _ => true
  | .setRgb _ | .shade _ | .tint _ => false

/-- The format shows the hue of a gray that is stored in rgb. -/
def ColorFormat.showsGrayHue : ColorFormat → Bool
  | .hsl | .hslLegacy | .hwb => true
  | .legacy | .string | .rgb | .rgbLegacy | .hex => false

namespace Color

variable {c d : Color Float}

theorem inSpace_hwb_of_rgb (h : c.space = .rgb) :
    c.inSpace .hwb = .ok (ofChannels .hwb (hwbOfRgb c.hue c.channels) c.alpha) := by
  rw [inSpace, if_neg (by rw [h]; decide), channelsIn, hwb_of_ne (by rw [h]; decide),
    rgb_of_space h]
  rfl

theorem inSpace_rgb_of_hwb (t : Triple Float) (a : Float) :
    (ofChannels .hwb t a).inSpace .rgb =
      rgbOfHwb t >>= fun rgb => pure (ofChannels .rgb rgb a t.first) :=
  if_neg (show ¬ColorSpace.rgb = .hwb by decide)

/-- A blend in rgb starts from the channels there, whatever hue the start remembers. -/
theorem endsAlike_blend_rgb
    (h : EndsAlike (fun a b => sameDoubles.Channels .rgb sameDoubles.still a.channels b.channels)
      (c.inSpace .rgb) (d.inSpace .rgb))
    (halpha : Agree c.alpha d.alpha) (other : Color Float) (share : Float) :
    EndsAlike AgreesButHue (c.blend other share) (d.blend other share) :=
  h.bind fun _ _ hchannels => EndsAlike.bind_left _ fun _ =>
    .ok (agreesButHue_ofChannels (hchannels.zipWith_between share (.refl .rgb _)) halpha _ _)

namespace SameGray

variable (h : c.SameGray d)

include h

theorem channels : sameDoubles.Channels .rgb sameDoubles.still c.channels d.channels :=
  ⟨h.first, h.second, h.third⟩

/-- The grays differ in their hue alone, in every space. -/
theorem endsAlike_channelsIn {space : ColorSpace} (hspace : space ≠ .rgb) :
    EndsAlike (fun s t : Triple Float => s.second = t.second ∧ s.third = t.third)
      (c.channelsIn space) (d.channelsIn space) := by
  have hleft : c.rgb = .ok c.channels := rgb_of_space h.space_left
  have hright : d.rgb = .ok d.channels := rgb_of_space h.space_right
  have hown : space ≠ c.space := by rwa [h.space_left]
  have hown' : space ≠ d.space := by rwa [h.space_right]
  cases space with
  | rgb => exact absurd rfl hspace
  | hsl =>
    rw [channelsIn, channelsIn, hsl_of_ne hown, hsl_of_ne hown', hleft, hright]
    change EndsAlike _ (hslOfRgb c.hue c.channels) (hslOfRgb d.hue d.channels)
    rw [Likeness.hslOfRgb_eq_map h.channels.map_clamp c.hue d.hue]
    cases hslOfRgb c.hue c.channels with
    | error fault => exact .error fault
    | ok s => exact .ok ⟨rfl, rfl⟩
  | hwb =>
    rw [channelsIn, channelsIn, hwb_of_ne hown, hwb_of_ne hown', hleft, hright]
    refine .ok ?_
    rw [hwbOfRgb, hwbOfRgb, h.channels.map_clamp]
    exact ⟨rfl, rfl⟩

theorem endsAlike_set {channel : Channel} {x : Float}
    (hchannel : ¬(Operation.set channel x).usesGrayHue) :
    EndsAlike AgreesButHue (c.set channel x) (d.set channel x) := by
  have hleft : c.channelsIn .rgb = .ok c.channels := rgb_of_space h.space_left
  have hright : d.channelsIn .rgb = .ok d.channels := rgb_of_space h.space_right
  have hrgb {channel : Channel} {place : Fin 3} (hhome : channel.home? = some (.rgb, place)) :
      EndsAlike AgreesButHue (c.set channel x) (d.set channel x) := by
    rw [set_of_channelsIn hhome hleft, set_of_channelsIn hhome hright]
    obtain ⟨j, hset⟩ := h.channels.exists_set x place
    exact .ok (agreesButHue_ofChannels (hset.rgb _) h.alpha _ _)
  cases channel with
  | red => exact hrgb rfl
  | green => exact hrgb rfl
  | blue => exact hrgb rfl
  | hue =>
    have hhsl : ColorSpace.hsl ≠ .rgb := by decide
    refine (h.endsAlike_channelsIn hhsl).bind fun s t hst => .ok (.inl ?_)
    exact ⟨rfl, .refl x, .inl hst.1, .inl hst.2, h.alpha, .refl x⟩
  | alpha =>
    rw [Color.set, Color.set]
    dsimp only [Channel.home?]
    rw [h.space_left, h.space_right]
    exact .ok (agreesButHue_ofChannels h.channels (.refl x) _ _)
  | saturation => exact absurd rfl hchannel
  | lightness => exact absurd rfl hchannel
  | whiteness => exact absurd rfl hchannel
  | blackness => exact absurd rfl hchannel

/-- Shades and tints of grays are mixed from grays again, since a gray stays one in hwb. -/
theorem endsAlike_blend_of_hwb (other : Color Float) (share : Float) :
    EndsAlike AgreesButHue (do (← c.inSpace .hwb).blend other share)
      (do (← d.inSpace .hwb).blend other share) := by
  have hrgb : rgbOfHwb (hwbOfRgb c.hue c.channels) = rgbOfHwb (hwbOfRgb d.hue d.channels) := by
    have hclamped : hwbOfRgb d.hue c.channels = hwbOfRgb d.hue d.channels := by
      rw [hwbOfRgb, hwbOfRgb, h.channels.map_clamp]
    rw [rgbOfHwb_hwbOfRgb_of_isGray h.isGray c.hue d.hue, hclamped]
  have hstart : EndsAlike
      (fun a b => sameDoubles.Channels .rgb sameDoubles.still a.channels b.channels)
      ((ofChannels .hwb (hwbOfRgb c.hue c.channels) c.alpha).inSpace .rgb)
      ((ofChannels .hwb (hwbOfRgb d.hue d.channels) d.alpha).inSpace .rgb) := by
    rw [inSpace_rgb_of_hwb, inSpace_rgb_of_hwb, hrgb]
    exact EndsAlike.bind_left _ fun t => .ok (.refl .rgb t)
  rw [inSpace_hwb_of_rgb h.space_left, inSpace_hwb_of_rgb h.space_right]
  exact endsAlike_blend_rgb hstart h.alpha other share

theorem endsAlike_apply {operation : Operation Float} (hoperation : ¬operation.usesGrayHue) :
    EndsAlike AgreesButHue (c.apply operation) (d.apply operation) := by
  have hstay {space : ColorSpace} (hspace : space = .rgb) :
      c.inSpace space = .ok c ∧ d.inSpace space = .ok d := by
    subst hspace
    exact ⟨if_pos h.space_left.symm, if_pos h.space_right.symm⟩
  cases operation with
  | set channel x => exact h.endsAlike_set hoperation
  | setRgb channels => exact .ok (agreesButHue_ofChannels (.refl .rgb channels) h.alpha _ _)
  | inSpace space =>
    obtain ⟨hleft, hright⟩ := hstay (by simpa [Operation.usesGrayHue] using hoperation)
    rw [Color.apply, Color.apply, hleft, hright]
    exact .ok (.inr h)
  | mix other share space mixAlpha =>
    obtain rfl : space = .rgb := by simpa [Operation.usesGrayHue] using hoperation
    obtain ⟨hleft, hright⟩ := hstay rfl
    rw [Color.apply, Color.apply, mix, mix, hleft, hright]
    refine EndsAlike.bind_left _ fun goal => .ok ?_
    refine agreesButHue_ofChannels (h.channels.zipWith_between share (.refl .rgb _)) ?_ _ _
    cases mixAlpha with
    | false => exact h.alpha
    | true => exact h.alpha.between share (.refl _)
  | shade share => exact h.endsAlike_blend_of_hwb _ share
  | tint share => exact h.endsAlike_blend_of_hwb _ share
  | contrast share => exact absurd rfl hoperation

theorem endsAlike_get {channel : Channel} (hchannel : channel ≠ .hue) :
    EndsAlike Agree (c.get channel) (d.get channel) := by
  have hleft : c.channelsIn .rgb = .ok c.channels := rgb_of_space h.space_left
  have hright : d.channelsIn .rgb = .ok d.channels := rgb_of_space h.space_right
  rw [get_eq fun hhue => hchannel hhue.1, get_eq fun hhue => hchannel hhue.1]
  have hrgb : EndsAlike (sameDoubles.Channels .rgb sameDoubles.still) (c.channelsIn .rgb)
      (d.channelsIn .rgb) := by
    rw [hleft, hright]
    exact .ok h.channels
  have hhsl := h.endsAlike_channelsIn (show ColorSpace.hsl ≠ .rgb by decide)
  have hhwb := h.endsAlike_channelsIn (show ColorSpace.hwb ≠ .rgb by decide)
  cases channel with
  | red => exact hrgb.bind fun s t hst => .ok hst.first
  | green => exact hrgb.bind fun s t hst => .ok hst.second
  | blue => exact hrgb.bind fun s t hst => .ok hst.third
  | hue => exact absurd rfl hchannel
  | saturation => exact hhsl.bind fun s t hst => .ok (.inl hst.1)
  | lightness => exact hhsl.bind fun s t hst => .ok (.inl hst.2)
  | whiteness => exact hhwb.bind fun s t hst => .ok (.inl hst.1)
  | blackness => exact hhwb.bind fun s t hst => .ok (.inl hst.2)
  | alpha => exact .ok h.alpha

end SameGray

namespace AgreesButHue

theorem endsAlike_apply (h : c.AgreesButHue d) {operation : Operation Float}
    (hoperation : ¬operation.usesGrayHue) :
    EndsAlike AgreesButHue (c.apply operation) (d.apply operation) := by
  rcases h with h | h
  · exact (h.endsAlike_apply operation).mono fun _ _ => .inl
  · exact h.endsAlike_apply hoperation

theorem endsAlike_after (h : c.AgreesButHue d) {operations : List (Operation Float)}
    (hoperations : ∀ operation ∈ operations, ¬operation.usesGrayHue) :
    EndsAlike AgreesButHue (c.after operations) (d.after operations) := by
  induction operations generalizing c d with
  | nil => exact .ok h
  | cons operation operations ih =>
    obtain ⟨hfirst, hrest⟩ := List.forall_mem_cons.mp hoperations
    exact (h.endsAlike_apply hfirst).bind fun _ _ h' => ih h' hrest

theorem endsAlike_get (h : c.AgreesButHue d) {channel : Channel} (hchannel : channel ≠ .hue) :
    EndsAlike Agree (c.get channel) (d.get channel) := by
  rcases h with h | h
  · exact h.endsAlike_get channel
  · exact h.endsAlike_get hchannel

theorem toCss_eq (h : c.AgreesButHue d) {format : ColorFormat} (hformat : ¬format.showsGrayHue) :
    c.toCss format = d.toCss format := by
  rcases h with h | h
  · exact h.toCss_eq format
  have hrgb : EndsAlike (sameDoubles.Channels .rgb sameDoubles.still) c.rgb d.rgb := by
    rw [rgb_of_space h.space_left, rgb_of_space h.space_right]
    exact .ok h.channels
  cases format with
  | legacy =>
    rw [toCss, toCss, h.space_left, h.space_right]
    exact Likeness.rgbLegacy_eq (l := sameDoubles) h.alpha hrgb
  | string =>
    rw [toCss, toCss, h.space_left, h.space_right]
    exact Likeness.rgbSpaced_eq (l := sameDoubles) h.alpha hrgb
  | rgb => exact Likeness.rgbSpaced_eq (l := sameDoubles) h.alpha hrgb
  | rgbLegacy => exact Likeness.rgbLegacy_eq (l := sameDoubles) h.alpha hrgb
  | hex => exact Likeness.hex_eq (l := sameDoubles) h.alpha hrgb
  | hsl => exact absurd rfl hformat
  | hslLegacy => exact absurd rfl hformat
  | hwb => exact absurd rfl hformat

end AgreesButHue

end Color

/-! ## What can be told of equal colors -/

open Color in
/-- Equal colors remember the same hue, unless they are grays in rgb.  If they do, all operations
lead to colors that agree, with the same fault if any; so do those that ask for no hue of a gray
otherwise.  What agrees reads alike and has the same texts, and it is equal if it is a number. -/
theorem equal_colors_agree {c d : Color Float} (hc : c.IsMade) (hd : d.IsMade) (h : c == d) :
    (Agree c.hue d.hue ∨ c.SameGray d) ∧
    (Agree c.hue d.hue → ∀ operations : List (Operation Float),
      EndsAlike Agrees (c.after operations) (d.after operations) ∧
      (∀ channel, EndsAlike Agree (c.after operations >>= (·.get channel))
        (d.after operations >>= (·.get channel))) ∧
      ∀ format, (c.after operations >>= (·.toCss format)) =
        (d.after operations >>= (·.toCss format))) ∧
    (∀ operations : List (Operation Float), (∀ o ∈ operations, ¬o.usesGrayHue) →
      EndsAlike AgreesButHue (c.after operations) (d.after operations) ∧
      (∀ channel, channel ≠ .hue → EndsAlike Agree (c.after operations >>= (·.get channel))
        (d.after operations >>= (·.get channel))) ∧
      ∀ format : ColorFormat, ¬format.showsGrayHue →
        (c.after operations >>= (·.toCss format)) = (d.after operations >>= (·.toCss format))) ∧
    (∀ e f : Color Float, e.AgreesButHue f → (e == f ↔ e == e)) ∧
    ∀ x y, Agree x y → (x == y ↔ x == x) := by
  have hagrees := agreesButHue_of_beq hc hd h
  refine ⟨?_, fun hhue operations => ?_, fun operations hoperations => ?_,
    fun _ _ => AgreesButHue.beq_iff, fun _ _ => Agree.beq_iff⟩
  · rcases hagrees with hagrees | hgray
    · exact .inl hagrees.hue
    · exact .inr hgray
  · have hsame : c.Agrees d := by
      rcases hagrees with hagrees | hgray
      · exact hagrees
      · exact ⟨hgray.space_left.trans hgray.space_right.symm, hgray.first, hgray.second,
          hgray.third, hgray.alpha, hhue⟩
    have hafter := hsame.endsAlike_after operations
    exact ⟨hafter, fun channel => hafter.bind fun _ _ h => h.endsAlike_get channel,
      fun format => hafter.bind_eq fun _ _ h => h.toCss_eq format⟩
  · have hafter := hagrees.endsAlike_after hoperations
    exact ⟨hafter, fun channel hchannel => hafter.bind fun _ _ h => h.endsAlike_get hchannel,
      fun format hformat => hafter.bind_eq fun _ _ h => h.toCss_eq hformat⟩

/-- A gray in rgb that remembers a hue. -/
def Color.grayWithHue (hue : Float) : Color Float :=
  .ofChannels .rgb ⟨0.5, 0.5, 0.5⟩ 1 hue

/-- Equal grays are shaded to colors that agree but for their hue, and are written alike. -/
theorem equal_colors_agree_grays :
    Color.grayWithHue 0 == Color.grayWithHue 200 ∧
    EndsAlike Color.AgreesButHue ((Color.grayWithHue 0).after [.shade 0.25])
      ((Color.grayWithHue 200).after [.shade 0.25]) ∧
    ((Color.grayWithHue 0).after [.shade 0.25] >>= (·.toCss .legacy)) =
      ((Color.grayWithHue 200).after [.shade 0.25] >>= (·.toCss .legacy)) := by
  have hequal : Color.grayWithHue 0 == Color.grayWithHue 200 := by decide +kernel
  obtain ⟨-, -, hspares, -⟩ :=
    equal_colors_agree (Color.isMade_ofChannels ..) (Color.isMade_ofChannels ..) hequal
  obtain ⟨hafter, -, htexts⟩ := hspares [.shade 0.25] (by decide)
  exact ⟨hequal, hafter, htexts .legacy (by decide)⟩

/-- Equal grays may have different hues, and are not equal in hsl then. -/
theorem equal_grays_differ :
    Color.grayWithHue 0 == Color.grayWithHue 200 ∧
    (∃ x y, (Color.grayWithHue 0).get .hue = .ok x ∧ (Color.grayWithHue 200).get .hue = .ok y ∧
      ¬(x == y)) ∧
    ∃ e f, (Color.grayWithHue 0).inSpace .hsl = .ok e ∧
      (Color.grayWithHue 200).inSpace .hsl = .ok f ∧ ¬(e == f) := by
  have hhues : (do return (← (Color.grayWithHue 0).get .hue) == (← (Color.grayWithHue 200).get .hue) :
      Except ArithmeticFault Bool) = .ok false := by
    decide +kernel
  have hcolors : (do
      return (← (Color.grayWithHue 0).inSpace .hsl) == (← (Color.grayWithHue 200).inSpace .hsl) :
        Except ArithmeticFault Bool) = .ok false := by
    decide +kernel
  obtain ⟨x, hx, hhues⟩ := bind_eq_ok_iff.mp hhues
  obtain ⟨y, hy, hhues⟩ := bind_eq_ok_iff.mp hhues
  obtain ⟨e, he, hcolors⟩ := bind_eq_ok_iff.mp hcolors
  obtain ⟨f, hf, hcolors⟩ := bind_eq_ok_iff.mp hcolors
  exact ⟨by decide +kernel, ⟨x, y, hx, hy, by simpa using Except.ok.inj hhues⟩,
    e, f, he, hf, by simpa using Except.ok.inj hcolors⟩

end ColorMod
