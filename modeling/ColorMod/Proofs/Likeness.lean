import ColorMod.Color.Written
import ColorMod.Proofs.ChannelLaws

/-!
# Colors that are alike

Operations on colors clamp channels and wrap hues before they look at them, and otherwise mix them.
So they cannot tell colors from each other that differ in nothing but what clamping and wrapping
take away.  A `Likeness` says what may differ in a channel, and what in a hue that is turned in some
way; it owes no more than that clamping, wrapping and mixing respect this.

* `EndsAlike`: computations with the same fault, or with results that are related.
* `Likeness.Relates`: colors that are alike, channel by channel.
* `Relates.endsAlike_apply`, `Relates.endsAlike_get`, `Relates.toCss_eq`: what operations lead to, and
  what can be read from the colors.

A hue that is mixed with another one must be turned in the same way as that.  This is so for the ends
of a contrast, and in a mix with any color it is if there is only one turn.
-/

namespace ColorMod

open Scalar

/-! ## Computations that end alike -/

/-- The computations end with the same fault, or with results that are related. -/
inductive EndsAlike {ε β γ : Type} (R : β → γ → Prop) : Except ε β → Except ε γ → Prop
  | ok {b : β} {c : γ} : R b c → EndsAlike R (.ok b) (.ok c)
  | error (e : ε) : EndsAlike R (.error e) (.error e)

namespace EndsAlike

variable {ε β γ β' γ' : Type} {R : β → γ → Prop} {S : β' → γ' → Prop} {x : Except ε β}
  {y : Except ε γ}

theorem bind {f : β → Except ε β'} {g : γ → Except ε γ'} (h : EndsAlike R x y)
    (hf : ∀ b c, R b c → EndsAlike S (f b) (g c)) : EndsAlike S (x >>= f) (y >>= g) := by
  cases h with
  | ok hbc => exact hf _ _ hbc
  | error e => exact .error e

theorem map {f : β → β'} {g : γ → γ'} (h : EndsAlike R x y) (hf : ∀ b c, R b c → S (f b) (g c)) :
    EndsAlike S (f <$> x) (g <$> y) := by
  cases h with
  | ok hbc => exact .ok (hf _ _ hbc)
  | error e => exact .error e

/-- Results that are related may lead on to the same. -/
theorem bind_eq {f : β → Except ε β'} {g : γ → Except ε β'} (h : EndsAlike R x y)
    (hf : ∀ b c, R b c → f b = g c) : x >>= f = y >>= g := by
  cases h with
  | ok hbc => exact hf _ _ hbc
  | error e => rfl

theorem refl {R : β → β → Prop} (hR : ∀ b, R b b) (x : Except ε β) : EndsAlike R x x := by
  cases x with
  | ok b => exact .ok (hR b)
  | error e => exact .error e

/-- The same computation may lead on to ones that end alike. -/
theorem bind_left (x : Except ε β) {f : β → Except ε β'} {g : β → Except ε γ'}
    (hf : ∀ b, EndsAlike S (f b) (g b)) : EndsAlike S (x >>= f) (x >>= g) :=
  (refl (R := Eq) (fun _ => rfl) x).bind fun b _ hbc => hbc ▸ hf b

theorem mono {R' : β → γ → Prop} (h : EndsAlike R x y) (hR : ∀ b c, R b c → R' b c) :
    EndsAlike R' x y := by
  cases h with
  | ok hbc => exact .ok (hR _ _ hbc)
  | error e => exact .error e

theorem mapError {δ : Type} {f : ε → δ} (h : EndsAlike R x y) :
    EndsAlike R (x.mapError f) (y.mapError f) := by
  cases h with
  | ok hbc => exact .ok hbc
  | error e => exact .error (f e)

theorem exists_right {b : β} (h : EndsAlike R x y) (hx : x = .ok b) : ∃ c, y = .ok c ∧ R b c := by
  cases h with
  | ok hbc =>
    cases hx
    exact ⟨_, rfl, hbc⟩
  | error e => cases hx

theorem exists_left {c : γ} (h : EndsAlike R x y) (hy : y = .ok c) : ∃ b, x = .ok b ∧ R b c := by
  cases h with
  | ok hbc =>
    cases hy
    exact ⟨_, rfl, hbc⟩
  | error e => cases hy

/-- How the results are related may be told in advance. -/
theorem exists_of_exists {ι : Type} [Nonempty ι] {R : ι → β → γ → Prop}
    (h : EndsAlike (fun b c => ∃ i, R i b c) x y) : ∃ i, EndsAlike (R i) x y := by
  cases h with
  | ok hbc =>
    obtain ⟨i, hi⟩ := hbc
    exact ⟨i, .ok hi⟩
  | error e => exact ⟨Classical.arbitrary ι, .error e⟩

end EndsAlike

/-! ## Likeness -/

/-- When channels are alike, and when a hue is like another one that is turned in some way. -/
structure Likeness (α : Type) [Scalar α] where
  Turn : Type
  /-- The turn of a hue that stays as it is. -/
  still : Turn
  channel : α → α → Prop
  hue : Turn → α → α → Prop
  channel_refl (x : α) : channel x x
  hue_refl (x : α) : hue still x x
  clamp_eq {x y : α} : channel x y → clamp x = clamp y
  rem_eq {k : Turn} {x y : α} : hue k x y → rem x 360 = rem y 360
  channel_between {x x' y y' : α} (share : α) : channel x x' → channel y y' →
    channel (Color.between share x y) (Color.between share x' y')
  hue_between {k : Turn} {x x' y y' : α} (share : α) : hue k x x' → hue k y y' →
    hue k (Color.between share x y) (Color.between share x' y')

namespace Likeness

variable {α : Type} [Scalar α] (l : Likeness α)

instance : Nonempty l.Turn :=
  ⟨l.still⟩

/-- The first channel is a hue in every space but rgb. -/
def first (space : ColorSpace) (k : l.Turn) : α → α → Prop :=
  match space with
  | .rgb => l.channel
  | .hsl | .hwb => l.hue k

/-- The channels of colors in a space are alike, the hue up to a turn. -/
structure Channels (space : ColorSpace) (k : l.Turn) (s t : Triple α) : Prop where
  first : l.first space k s.first t.first
  second : l.channel s.second t.second
  third : l.channel s.third t.third

/-- The colors are alike, their hues up to a turn. -/
structure RelatesBy (k : l.Turn) (c d : Color α) : Prop where
  space_eq : c.space = d.space
  channels : l.Channels c.space k c.channels d.channels
  alpha : l.channel c.alpha d.alpha
  hue : l.hue k c.hue d.hue

/-- The colors are alike. -/
def Relates (c d : Color α) : Prop :=
  ∃ k, l.RelatesBy k c d

variable {l} {j k : l.Turn} {space : ColorSpace} {s t u v : Triple α} {c d e f : Color α}

namespace Channels

theorem refl (space : ColorSpace) (t : Triple α) : l.Channels space l.still t t := by
  refine ⟨?_, l.channel_refl _, l.channel_refl _⟩
  cases space with
  | rgb => exact l.channel_refl _
  | hsl => exact l.hue_refl _
  | hwb => exact l.hue_refl _

/-- Channels of rgb have no hue to turn. -/
theorem rgb (h : l.Channels .rgb j s t) (k : l.Turn) : l.Channels .rgb k s t :=
  ⟨h.first, h.second, h.third⟩

theorem map_clamp (h : l.Channels .rgb k s t) : s.map clamp = t.map clamp := by
  rw [Triple.map, Triple.map, l.clamp_eq h.first, l.clamp_eq h.second, l.clamp_eq h.third]

/-- An entry that is replaced is the same then. -/
theorem exists_set (h : l.Channels space k s t) (x : α) (place : Fin 3) :
    ∃ j, l.Channels space j (s.set x place) (t.set x place) := by
  match place with
  | 0 => exact ⟨l.still, (refl space (s.set x 0)).first, h.second, h.third⟩
  | 1 => exact ⟨k, h.first, l.channel_refl x, h.third⟩
  | 2 => exact ⟨k, h.first, h.second, l.channel_refl x⟩

theorem zipWith_between (share : α) (h : l.Channels space k s t) (h' : l.Channels space k u v) :
    l.Channels space k (s.zipWith (Color.between share) u) (t.zipWith (Color.between share) v) := by
  refine ⟨?_, l.channel_between share h.second h'.second, l.channel_between share h.third h'.third⟩
  cases space with
  | rgb => exact l.channel_between share h.first h'.first
  | hsl => exact l.hue_between share h.first h'.first
  | hwb => exact l.hue_between share h.first h'.first

/-! ### Conversions -/

section

variable {kept kept' : α}

/-- A gray keeps a hue that may be turned, and any other color has its own. -/
theorem exists_hueOfRgb (h : l.Channels .rgb j s t) (hkept : l.hue k kept kept') :
    ∃ i, l.hue i (hueOfRgb kept s) (hueOfRgb kept' t) := by
  rw [hueOfRgb, hueOfRgb, h.map_clamp]
  dsimp only
  split
  · exact ⟨k, hkept⟩
  · exact ⟨l.still, l.hue_refl _⟩

end

end Channels

/-- What hue is kept makes no difference to saturation and lightness. -/
theorem hslOfRgb_eq_map (h : s.map clamp = t.map clamp) (kept kept' : α) :
    hslOfRgb kept' t =
      (fun u => { u with first := hueOfRgb kept' (t.map clamp) }) <$> hslOfRgb kept s := by
  rw [hslOfRgb, hslOfRgb, h]
  dsimp only
  split
  · rfl
  · rw [divide]
    split <;> rfl

namespace Channels

theorem endsAlike_hslOfRgb {kept kept' : α} (h : l.Channels .rgb j s t)
    (hkept : l.hue k kept kept') :
    EndsAlike (fun u v => ∃ i, l.Channels .hsl i u v) (hslOfRgb kept s) (hslOfRgb kept' t) := by
  rw [hslOfRgb_eq_map h.map_clamp kept kept']
  cases hu : hslOfRgb kept s with
  | error fault => exact .error fault
  | ok u =>
    obtain ⟨i, hi⟩ := (refl .rgb (t.map clamp)).exists_hueOfRgb hkept
    refine .ok ⟨i, ?_, l.channel_refl _, l.channel_refl _⟩
    rw [first_of_hslOfRgb hu, h.map_clamp]
    exact hi

theorem exists_hwbOfRgb {kept kept' : α} (h : l.Channels .rgb j s t)
    (hkept : l.hue k kept kept') : ∃ i, l.Channels .hwb i (hwbOfRgb kept s) (hwbOfRgb kept' t) := by
  obtain ⟨i, hi⟩ := (refl .rgb (t.map clamp)).exists_hueOfRgb hkept
  rw [hwbOfRgb, hwbOfRgb, h.map_clamp]
  exact ⟨i, hi, l.channel_refl _, l.channel_refl _⟩

theorem rgbOfHsl_eq (h : l.Channels .hsl k s t) : rgbOfHsl s = rgbOfHsl t := by
  rw [rgbOfHsl, rgbOfHsl, l.rem_eq h.first, l.clamp_eq h.second, l.clamp_eq h.third]

theorem rgbOfHwb_eq (h : l.Channels .hwb k s t) : rgbOfHwb s = rgbOfHwb t := by
  have hpure : rgbOfHsl ⟨s.first, 1, 0.5⟩ = rgbOfHsl ⟨t.first, 1, 0.5⟩ :=
    Channels.rgbOfHsl_eq (l := l) ⟨h.first, l.channel_refl _, l.channel_refl _⟩
  rw [rgbOfHwb, rgbOfHwb, l.clamp_eq h.second, l.clamp_eq h.third, hpure]

/-- Colors of alike channels are alike, also when they are grays that keep hues. -/
theorem relates_ofChannels {a b kept kept' : α} (h : l.Channels space j s t)
    (halpha : l.channel a b) (hkept : l.hue k kept kept') :
    l.Relates (.ofChannels space s a kept) (.ofChannels space t b kept') := by
  cases space with
  | rgb =>
    obtain ⟨i, hi⟩ := h.exists_hueOfRgb hkept
    exact ⟨i, rfl, h.rgb i, halpha, hi⟩
  | hsl => exact ⟨j, rfl, h, halpha, h.first⟩
  | hwb => exact ⟨j, rfl, h, halpha, h.first⟩

end Channels

theorem Relates.refl (l : Likeness α) (c : Color α) : l.Relates c c :=
  ⟨l.still, rfl, Channels.refl _ _, l.channel_refl _, l.hue_refl _⟩

/-! ### The color in each space -/

theorem Relates.endsAlike_rgb (h : l.Relates c d) :
    EndsAlike (l.Channels .rgb l.still) c.rgb d.rgb := by
  obtain ⟨k, hspace, hchannels, -, -⟩ := h
  rw [Color.rgb, Color.rgb, ← hspace]
  cases hown : c.space with
  | rgb =>
    rw [hown] at hchannels
    exact .ok (hchannels.rgb _)
  | hsl =>
    rw [hown] at hchannels
    dsimp only
    rw [hchannels.rgbOfHsl_eq]
    exact .refl (Channels.refl .rgb) _
  | hwb =>
    rw [hown] at hchannels
    dsimp only
    rw [hchannels.rgbOfHwb_eq]
    exact .refl (Channels.refl .rgb) _

theorem Relates.endsAlike_channelsIn (h : l.Relates c d) (space : ColorSpace) :
    EndsAlike (fun s t => ∃ j, l.Channels space j s t) (c.channelsIn space)
      (d.channelsIn space) := by
  have hrgb := h.endsAlike_rgb
  obtain ⟨k, hspace, hchannels, -, hhue⟩ := h
  by_cases hown : space = c.space
  · have hleft : c.channelsIn space = .ok c.channels := hown ▸ c.channelsIn_space
    have hright : d.channelsIn space = .ok d.channels := by
      rw [hown, hspace]
      exact d.channelsIn_space
    rw [hleft, hright, hown]
    exact .ok ⟨k, hchannels⟩
  · have hown' : space ≠ d.space := hspace ▸ hown
    cases space with
    | rgb => exact hrgb.mono fun s t hst => ⟨_, hst⟩
    | hsl =>
      rw [Color.channelsIn, Color.channelsIn, Color.hsl_of_ne hown, Color.hsl_of_ne hown']
      exact hrgb.bind fun s t hst => hst.endsAlike_hslOfRgb hhue
    | hwb =>
      rw [Color.channelsIn, Color.channelsIn, Color.hwb_of_ne hown, Color.hwb_of_ne hown']
      exact hrgb.bind fun s t hst => .ok (hst.exists_hwbOfRgb hhue)

theorem Relates.endsAlike_inSpace (h : l.Relates c d) (space : ColorSpace) :
    EndsAlike (fun a b => a.space = space ∧ l.Relates a b) (c.inSpace space) (d.inSpace space) := by
  have hchannels := h.endsAlike_channelsIn space
  obtain ⟨k, hspace, hsame, halpha, hhue⟩ := h
  rw [Color.inSpace, Color.inSpace, ← hspace]
  split
  · next hown => exact .ok ⟨hown.symm, k, hspace, hsame, halpha, hhue⟩
  · refine hchannels.bind fun s t hst => ?_
    obtain ⟨j, hst⟩ := hst
    exact .ok ⟨rfl, hst.relates_ofChannels halpha hhue⟩

/-! ### Channels -/

theorem Relates.endsAlike_set (h : l.Relates c d) (channel : Channel) (x : α) :
    EndsAlike l.Relates (c.set channel x) (d.set channel x) := by
  have hchannels := h.endsAlike_channelsIn
  obtain ⟨k, hspace, hown, halpha, hhue⟩ := h
  rw [Color.set, Color.set]
  cases channel.home? with
  | none =>
    dsimp only
    rw [← hspace]
    exact .ok (hown.relates_ofChannels (l.channel_refl x) hhue)
  | some home =>
    obtain ⟨space, place⟩ := home
    refine (hchannels space).bind fun s t hst => ?_
    obtain ⟨j, hst⟩ := hst
    obtain ⟨i, hst⟩ := hst.exists_set x place
    exact .ok (hst.relates_ofChannels halpha hhue)

theorem Relates.setRgb (h : l.Relates c d) (channels : Triple α) :
    l.Relates (c.setRgb channels) (d.setRgb channels) := by
  obtain ⟨k, -, -, halpha, hhue⟩ := h
  exact (Channels.refl .rgb channels).relates_ofChannels halpha hhue

theorem Relates.alpha (h : l.Relates c d) : l.channel c.alpha d.alpha := by
  obtain ⟨k, -, -, halpha, -⟩ := h
  exact halpha

/-- The hue that is read may be turned. -/
theorem Relates.endsAlike_get_hue (h : l.Relates c d) :
    EndsAlike (fun x y => ∃ k, l.hue k x y) (c.get .hue) (d.get .hue) := by
  have hchannels := h.endsAlike_channelsIn .hsl
  obtain ⟨k, hspace, -, -, hhue⟩ := h
  by_cases hrgb : c.space = .rgb
  · have hleft : c.get .hue = .ok c.hue := by simp only [Color.get, hrgb]
    have hright : d.get .hue = .ok d.hue := by simp only [Color.get, ← hspace, hrgb]
    rw [hleft, hright]
    exact .ok ⟨k, hhue⟩
  · have hrgb' : d.space ≠ .rgb := hspace ▸ hrgb
    rw [Color.get_eq fun h => hrgb h.2, Color.get_eq fun h => hrgb' h.2]
    refine hchannels.bind fun s t hst => ?_
    obtain ⟨j, hst⟩ := hst
    exact .ok ⟨j, hst.first⟩

/-- Any other channel that is read is alike. -/
theorem Relates.endsAlike_get (h : l.Relates c d) {channel : Channel} (hchannel : channel ≠ .hue) :
    EndsAlike l.channel (c.get channel) (d.get channel) := by
  rw [Color.get_eq fun h => hchannel h.1, Color.get_eq fun h => hchannel h.1]
  have hrgb := h.endsAlike_channelsIn .rgb
  have hhsl := h.endsAlike_channelsIn .hsl
  have hhwb := h.endsAlike_channelsIn .hwb
  cases channel with
  | red => exact hrgb.bind fun s t hst => .ok hst.choose_spec.first
  | green => exact hrgb.bind fun s t hst => .ok hst.choose_spec.second
  | blue => exact hrgb.bind fun s t hst => .ok hst.choose_spec.third
  | hue => exact absurd rfl hchannel
  | saturation => exact hhsl.bind fun s t hst => .ok hst.choose_spec.second
  | lightness => exact hhsl.bind fun s t hst => .ok hst.choose_spec.third
  | whiteness => exact hhwb.bind fun s t hst => .ok hst.choose_spec.second
  | blackness => exact hhwb.bind fun s t hst => .ok hst.choose_spec.third
  | alpha => exact .ok h.alpha

/-! ### Mixing -/

/-- Mixes are alike in rgb, and in any space if hues can be turned in one way only. -/
theorem Relates.endsAlike_mix (h : l.Relates c d) (h' : l.Relates e f) (share : α)
    (mixAlpha : Bool) (hspace : space = .rgb ∨ Subsingleton l.Turn) :
    EndsAlike l.Relates (c.mix e share space mixAlpha) (d.mix f share space mixAlpha) := by
  refine (h.endsAlike_inSpace space).bind fun start start' hstart => ?_
  refine (h'.endsAlike_inSpace space).bind fun goal goal' hgoal => .ok ?_
  obtain ⟨hstart, i, -, hchannels, -, -⟩ := hstart
  obtain ⟨hgoal, j, -, hchannels', -, -⟩ := hgoal
  rw [hstart] at hchannels
  rw [hgoal] at hchannels'
  have hsame : l.Channels space i goal.channels goal'.channels := by
    rcases hspace with rfl | hone
    · exact hchannels'.rgb i
    · rwa [hone.elim i j]
  obtain ⟨k, -, -, halpha, hhue⟩ := h
  refine (hchannels.zipWith_between share hsame).relates_ofChannels ?_ hhue
  cases mixAlpha with
  | false => exact halpha
  | true => exact l.channel_between share halpha h'.alpha

theorem Relates.endsAlike_shade (h : l.Relates c d) (share : α) :
    EndsAlike l.Relates (c.shade share) (d.shade share) :=
  (h.endsAlike_inSpace .hwb).bind fun _ _ hstart =>
    hstart.2.endsAlike_mix (.refl l _) share false (.inl rfl)

theorem Relates.endsAlike_tint (h : l.Relates c d) (share : α) :
    EndsAlike l.Relates (c.tint share) (d.tint share) :=
  (h.endsAlike_inSpace .hwb).bind fun _ _ hstart =>
    hstart.2.endsAlike_mix (.refl l _) share false (.inl rfl)

/-! ### Contrast -/

/-- The colors are stored in hwb and are alike there, up to one turn. -/
structure OnWheel (l : Likeness α) (k : l.Turn) (c d : Color α) : Prop where
  left : c.space = .hwb
  right : d.space = .hwb
  channels : l.Channels .hwb k c.channels d.channels
  alpha : l.channel c.alpha d.alpha

theorem onWheel_ofChannels {a b : α} (h : l.Channels .hwb k s t) (ha : l.channel a b)
    (kept kept' : α) : l.OnWheel k (.ofChannels .hwb s a kept) (.ofChannels .hwb t b kept') :=
  ⟨rfl, rfl, h, ha⟩

/-- Blends of colors that are turned in one way are turned in that way. -/
theorem OnWheel.endsAlike_blend (h : l.OnWheel k c d) (h' : l.OnWheel k e f) (share : α) :
    EndsAlike (fun a b => l.OnWheel k a b ∧ l.Relates a b) (c.blend e share .hwb)
      (d.blend f share .hwb) := by
  have hown {c : Color α} (hspace : c.space = .hwb) : c.inSpace .hwb = .ok c :=
    if_pos hspace.symm
  rw [Color.blend, Color.blend, Color.mix, Color.mix, hown h.left, hown h.right, hown h'.left,
    hown h'.right]
  have hchannels := h.channels.zipWith_between share h'.channels
  exact .ok ⟨onWheel_ofChannels hchannels h.alpha _ _, k, rfl, hchannels, h.alpha, hchannels.first⟩

section

variable [LightCurve α]

theorem Relates.luminance_eq (h : l.Relates c d) : c.luminance = d.luminance := by
  refine h.endsAlike_rgb.bind_eq fun s t hst => ?_
  have hlight : (s.map fun v => LightCurve.light (clamp v)) =
      t.map fun v => LightCurve.light (clamp v) := by
    rw [Triple.map, Triple.map, l.clamp_eq hst.first, l.clamp_eq hst.second, l.clamp_eq hst.third]
  rw [relativeLuminance, relativeLuminance, hlight]

theorem Relates.contrastWith_eq (h : l.Relates c d) (h' : l.Relates e f) :
    c.contrastWith e = d.contrastWith f := by
  rw [Color.contrastWith, Color.contrastWith, h.luminance_eq, h'.luminance_eq]

/-- The search compares the same lights, and so it ends at the same share. -/
theorem Relates.leastReadable_eq (h : l.Relates c d) {start start' : Color α}
    (hstart : l.OnWheel k start start') (hgoal : l.OnWheel k e f) (steps : Nat) (low high : α) :
    c.leastReadable start e steps low high = d.leastReadable start' f steps low high := by
  induction steps generalizing low high with
  | zero => rfl
  | succ steps ih =>
    rw [Color.leastReadable, Color.leastReadable]
    refine (hstart.endsAlike_blend hgoal _).bind_eq fun middle middle' hmiddle => ?_
    rw [h.contrastWith_eq hmiddle.2]
    refine bind_congr fun ratio => ?_
    rw [ih, ih]

/-- Both ends of a contrast take their hue from the color in hwb. -/
theorem Relates.endsAlike_contrast (h : l.Relates c d) (share : α) :
    EndsAlike l.Relates (c.contrast share) (d.contrast share) := by
  obtain ⟨k, hhwb⟩ := (h.endsAlike_channelsIn .hwb).exists_of_exists
  have hgoal : EndsAlike (fun a b => l.OnWheel k a b ∧ l.Relates a b) c.contrastGoal
      d.contrastGoal := by
    refine hhwb.bind fun s t hst => ?_
    dsimp only
    rw [h.luminance_eq]
    refine EndsAlike.bind_left _ fun light => .ok ?_
    have hchannels : l.Channels .hwb k
        (if light < 0.5 then ⟨s.first, 1, 0⟩ else ⟨s.first, 0, 1⟩)
        (if light < 0.5 then ⟨t.first, 1, 0⟩ else ⟨t.first, 0, 1⟩) := by
      split
      · exact ⟨hst.first, l.channel_refl _, l.channel_refl _⟩
      · exact ⟨hst.first, l.channel_refl _, l.channel_refl _⟩
    exact ⟨onWheel_ofChannels hchannels h.alpha _ _, k, rfl, hchannels, h.alpha, hchannels.first⟩
  have hstart : EndsAlike (l.OnWheel k) (c.inSpace .hwb) (d.inSpace .hwb) := by
    obtain ⟨i, hspace, -, halpha, -⟩ := h
    rw [Color.inSpace, Color.inSpace, ← hspace]
    split
    · next hown =>
      have hleft : c.channelsIn .hwb = .ok c.channels := hown ▸ c.channelsIn_space
      have hright : d.channelsIn .hwb = .ok d.channels := by
        rw [hown, hspace]
        exact d.channelsIn_space
      rw [hleft, hright] at hhwb
      cases hhwb with
      | ok hchannels => exact .ok ⟨hown.symm, (hown.trans hspace).symm, hchannels, halpha⟩
    · exact hhwb.bind fun s t hst => .ok (onWheel_ofChannels hst halpha _ _)
  rw [Color.contrast_eq, Color.contrast_eq]
  refine hgoal.bind fun goal goal' hgoal => ?_
  rw [h.contrastWith_eq hgoal.2]
  refine EndsAlike.bind_left _ fun ratio => ?_
  have hfrom : EndsAlike (l.OnWheel k)
      (if Color.readableRatio < ratio then c.nearestReadable goal else pure goal)
      (if Color.readableRatio < ratio then d.nearestReadable goal' else pure goal') := by
    split
    · refine hstart.bind fun start start' hstart => ?_
      rw [h.leastReadable_eq hstart hgoal.1]
      exact EndsAlike.bind_left _ fun share =>
        (hstart.endsAlike_blend hgoal.1 share).mono fun _ _ => And.left
    · exact .ok hgoal.1
  exact hfrom.bind fun start start' hstart =>
    (hstart.endsAlike_blend hgoal.1 share).mono fun _ _ => And.right

/-- An operation leads from alike colors to alike colors, but for mixes of hues that may be turned
differently. -/
theorem Relates.endsAlike_apply (h : l.Relates c d) {operation : Operation α}
    (hmix : ∀ other share space mixAlpha, operation = .mix other share space mixAlpha →
      space = .rgb ∨ Subsingleton l.Turn) :
    EndsAlike l.Relates (c.apply operation) (d.apply operation) := by
  cases operation with
  | set channel x => exact h.endsAlike_set channel x
  | setRgb channels => exact .ok (h.setRgb channels)
  | inSpace space => exact (h.endsAlike_inSpace space).mono fun _ _ => And.right
  | mix other share space mixAlpha =>
    exact h.endsAlike_mix (.refl l other) share mixAlpha (hmix other share space mixAlpha rfl)
  | shade share => exact h.endsAlike_shade share
  | tint share => exact h.endsAlike_tint share
  | contrast share => exact h.endsAlike_contrast share

end

/-! ### Texts -/

section

open Written

variable {x y : α}

theorem commaForm_eq (h : l.channel x y) (name : String) (channels : List String) :
    commaForm name channels x = commaForm name channels y := by
  rw [commaForm, commaForm, l.clamp_eq h]

theorem spaceForm_eq (h : l.channel x y) (name : String) (channels : List String) :
    spaceForm name channels x = spaceForm name channels y := by
  rw [spaceForm, spaceForm, percentage, percentage, l.clamp_eq h]

theorem percentage_eq (h : l.channel x y) : percentage x = percentage y := by
  rw [percentage, percentage, l.clamp_eq h]

theorem byte_eq (h : l.channel x y) : byte x = byte y := by
  rw [byte, byte, l.clamp_eq h]

theorem hue_eq (h : l.hue k x y) : Written.hue x = Written.hue y := by
  rw [Written.hue, Written.hue, l.rem_eq h]

end

section

open Color Written

variable (halpha : l.channel c.alpha d.alpha)

include halpha

section

variable (h : EndsAlike (l.Channels .rgb k) c.rgb d.rgb)

include h

theorem rgbLegacy_eq : toCss.rgbLegacy c = toCss.rgbLegacy d := by
  refine h.bind_eq fun s t hst => ?_
  simp only [Triple.toList, List.map_cons, List.map_nil, byte_eq hst.first, byte_eq hst.second,
    byte_eq hst.third]
  rw [commaForm_eq halpha]

theorem rgbSpaced_eq : toCss.rgbSpaced c = toCss.rgbSpaced d := by
  refine h.bind_eq fun s t hst => ?_
  simp only [Triple.toList, List.map_cons, List.map_nil, percentage_eq hst.first,
    percentage_eq hst.second, percentage_eq hst.third]
  rw [spaceForm_eq halpha]

theorem hex_eq : c.toCss .hex = d.toCss .hex := by
  refine h.bind_eq fun s t hst => ?_
  simp only [Triple.toList, List.map_cons, List.map_nil, hexByte, byte_eq hst.first,
    byte_eq hst.second, byte_eq hst.third, byte_eq halpha, l.clamp_eq halpha]

end

theorem hslLegacy_eq (h : EndsAlike (fun s t => ∃ k, l.Channels .hsl k s t) c.hsl d.hsl) :
    toCss.hslLegacy c = toCss.hslLegacy d := by
  refine h.bind_eq fun s t hst => ?_
  obtain ⟨k, hst⟩ := hst
  dsimp only
  rw [hue_eq hst.first, percentage_eq hst.second, percentage_eq hst.third, commaForm_eq halpha]

theorem hslSpaced_eq (h : EndsAlike (fun s t => ∃ k, l.Channels .hsl k s t) c.hsl d.hsl) :
    toCss.hslSpaced c = toCss.hslSpaced d := by
  refine h.bind_eq fun s t hst => ?_
  obtain ⟨k, hst⟩ := hst
  dsimp only
  rw [hue_eq hst.first, percentage_eq hst.second, percentage_eq hst.third, spaceForm_eq halpha]

theorem hwbSpaced_eq (h : EndsAlike (fun s t => ∃ k, l.Channels .hwb k s t) c.hwb d.hwb) :
    toCss.hwbSpaced c = toCss.hwbSpaced d := by
  refine h.bind_eq fun s t hst => ?_
  obtain ⟨k, hst⟩ := hst
  dsimp only
  rw [hue_eq hst.first, percentage_eq hst.second, percentage_eq hst.third, spaceForm_eq halpha]

end

/-- Alike colors have the same texts. -/
theorem Relates.toCss_eq (h : l.Relates c d) (format : ColorFormat) :
    c.toCss format = d.toCss format := by
  have hspace : c.space = d.space := h.choose_spec.space_eq
  have hrgbLegacy := rgbLegacy_eq h.alpha h.endsAlike_rgb
  have hrgb := rgbSpaced_eq h.alpha h.endsAlike_rgb
  have hhslLegacy := hslLegacy_eq h.alpha (h.endsAlike_channelsIn .hsl)
  have hhsl := hslSpaced_eq h.alpha (h.endsAlike_channelsIn .hsl)
  have hhwb := hwbSpaced_eq h.alpha (h.endsAlike_channelsIn .hwb)
  cases format with
  | legacy => rw [Color.toCss, Color.toCss, ← hspace, hrgbLegacy, hhslLegacy]
  | string => rw [Color.toCss, Color.toCss, ← hspace, hrgb, hhsl, hhwb]
  | rgb => exact hrgb
  | rgbLegacy => exact hrgbLegacy
  | hsl => exact hhsl
  | hslLegacy => exact hhslLegacy
  | hwb => exact hhwb
  | hex => exact hex_eq h.alpha h.endsAlike_rgb

end Likeness

end ColorMod
