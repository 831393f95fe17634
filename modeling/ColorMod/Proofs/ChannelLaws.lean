import ColorMod.Proofs.AlphaChannel
import ColorMod.Proofs.Conversions
import ColorMod.Proofs.DoubleChannels

/-!
# Reading and writing channels

Operations lead from one color to the next, and whatever they are, the hue of the last color belongs
to its channels.  In such a color a channel is read and written like an entry of the triple that it
stands in, without any rounding.

* `Operation`, `Color.after`: operations on colors, and what a list of them leads to.
* `isMade_of_after`, `IsMade.hue_eq`: the invariant of the hue.
* `ChannelLaws`, `channelLaws_of_channelsIn`: how one channel of a color is read and written.
* `channelLaws_of_after`: both for every color that operations lead to.
-/

namespace ColorMod

open Scalar

/-- An operation that leads from one color to another. -/
inductive Operation (α : Type) where
  | set (channel : Channel) (x : α)
  | setRgb (channels : Triple α)
  | inSpace (space : ColorSpace)
  | mix (other : Color α) (share : α) (space : ColorSpace) (mixAlpha : Bool)
  | shade (share : α)
  | tint (share : α)
  | contrast (share : α)

namespace Color

section

variable {α : Type} [Scalar α] [LightCurve α]

def apply (c : Color α) : Operation α → Except ArithmeticFault (Color α)
  | .set channel x => c.set channel x
  | .setRgb channels => .ok (c.setRgb channels)
  | .inSpace space => c.inSpace space
  | .mix other share space mixAlpha => c.mix other share space mixAlpha
  | .shade share => c.shade share
  | .tint share => c.tint share
  | .contrast share => c.contrast share

/-- The color after operations, one after the other. -/
def after (c : Color α) (operations : List (Operation α)) : Except ArithmeticFault (Color α) :=
  operations.foldlM apply c

end

/-- The colors are stored alike; what hue they remember does not count. -/
structure StoredAlike {α : Type} (c d : Color α) : Prop where
  space_eq : c.space = d.space
  channels_eq : c.channels = d.channels
  alpha_eq : c.alpha = d.alpha

/-! ## The hue belongs to the channels -/

section

variable {α : Type} [Scalar α] {c d : Color α}

theorem isMade_of_inSpace {space : ColorSpace} (hc : c.IsMade) (h : c.inSpace space = .ok d) :
    d.IsMade := by
  unfold inSpace at h
  split at h
  · cases h
    exact hc
  · obtain ⟨t, -, h⟩ := bind_eq_ok_iff.mp h
    cases h
    exact isMade_ofChannels ..

/-- The hue of a color is that of its channels, or one that is kept for them. -/
theorem IsMade.hue_eq (h : c.IsMade) :
    c.hue = match c.space with
      | .rgb => hueOfRgb c.hue c.channels
      | .hsl | .hwb => c.channels.first := by
  obtain ⟨space, channels, alpha, kept, rfl⟩ := h
  cases space with
  | rgb => exact (hueOfRgb_hueOfRgb kept channels).symm
  | hsl => rfl
  | hwb => rfl

variable [LightCurve α]

theorem isMade_of_apply {operation : Operation α} (hc : c.IsMade) (h : c.apply operation = .ok d) :
    d.IsMade := by
  cases operation with
  | set channel x => exact isMade_of_set h
  | setRgb channels =>
    cases h
    exact isMade_ofChannels ..
  | inSpace space => exact isMade_of_inSpace hc h
  | mix other share space mixAlpha => exact isMade_of_mix h
  | shade share => exact isMade_of_shade h
  | tint share => exact isMade_of_tint h
  | contrast share => exact isMade_of_contrast h

theorem isMade_of_after {operations : List (Operation α)} (hc : c.IsMade)
    (h : c.after operations = .ok d) : d.IsMade := by
  induction operations generalizing c with
  | nil =>
    cases h
    exact hc
  | cons operation operations ih =>
    obtain ⟨c', hc', h⟩ := bind_eq_ok_iff.mp h
    exact ih (isMade_of_apply hc hc') h

end

end Color

/-! ## Entries of a triple -/

namespace Triple

variable {α : Type} (t : Triple α) (x y : α) (place : Fin 3)

@[simp] theorem get_set : (t.set x place).get place = x := by
  match place with
  | 0 => rfl
  | 1 => rfl
  | 2 => rfl

@[simp] theorem set_set : (t.set x place).set y place = t.set y place := by
  match place with
  | 0 => rfl
  | 1 => rfl
  | 2 => rfl

@[simp] theorem set_get : t.set (t.get place) place = t := by
  match place with
  | 0 => rfl
  | 1 => rfl
  | 2 => rfl

end Triple

/-! ## The channels of a color -/

theorem hueOfRgb_map_clamp (kept : Float) (rgb : Triple Float) :
    hueOfRgb kept (rgb.map clamp) = hueOfRgb kept rgb := by
  have hclamp : (rgb.map clamp).map clamp = rgb.map clamp := by
    simp only [Triple.map, clamp_clamp_double]
  unfold hueOfRgb
  rw [hclamp]

namespace Color

variable {c d : Color Float} {channel : Channel} {space : ColorSpace} {place : Fin 3}
  {t : Triple Float}

/-- The hue of a color in hsl is the one that it remembers. -/
theorem IsMade.first_of_hsl (h : c.IsMade) (ht : c.hsl = .ok t) (hspace : c.space ≠ .hwb) :
    t.first = c.hue := by
  have hhue := h.hue_eq
  cases hown : c.space with
  | rgb =>
    rw [hsl_of_ne (by rw [hown]; decide)] at ht
    obtain ⟨rgb, hrgb, ht⟩ := bind_eq_ok_iff.mp ht
    rw [hown] at hhue
    have hchannels : c.channels = rgb := by
      rw [Color.rgb, hown] at hrgb
      exact Except.ok.inj hrgb
    rw [first_of_hslOfRgb ht, hueOfRgb_map_clamp, ← hchannels]
    exact hhue.symm
  | hsl =>
    have hchannels : c.channels = t := by
      rw [Color.hsl, hown] at ht
      exact Except.ok.inj ht
    rw [hown] at hhue
    rw [← hchannels]
    exact hhue.symm
  | hwb => exact absurd hown hspace

/-- A channel is the entry at its place, but for the hue that an rgb color remembers. -/
theorem get_of_channelsIn {α : Type} [Scalar α] {c : Color α} {t : Triple α}
    (h : ¬(channel = .hue ∧ c.space = .rgb)) (hhome : channel.home? = some (space, place))
    (ht : c.channelsIn space = .ok t) : c.get channel = .ok (t.get place) := by
  rw [get_eq h, hhome]
  dsimp only
  rw [ht]
  rfl

/-- A channel is the entry at its place. -/
theorem IsMade.get_of_channelsIn (h : c.IsMade) (hhome : channel.home? = some (space, place))
    (ht : c.channelsIn space = .ok t) : c.get channel = .ok (t.get place) := by
  by_cases hrgb : channel = .hue ∧ c.space = .rgb
  · obtain ⟨rfl, hspace⟩ := hrgb
    cases hhome
    have hget : c.get .hue = .ok c.hue := by
      simp only [get, hspace]
    rw [hget, ← h.first_of_hsl ht (by rw [hspace]; decide)]
    rfl
  · exact Color.get_of_channelsIn hrgb hhome ht

theorem set_of_channelsIn {α : Type} [Scalar α] {c : Color α} {t : Triple α}
    (hhome : channel.home? = some (space, place)) (ht : c.channelsIn space = .ok t) (x : α) :
    c.set channel x = .ok (ofChannels space (t.set x place) c.alpha c.hue) := by
  rw [set, hhome]
  dsimp only
  rw [ht]
  rfl

theorem set_of_channelsIn_eq_error {fault : ArithmeticFault}
    (hhome : channel.home? = some (space, place)) (ht : c.channelsIn space = .error fault)
    (x : Float) : c.set channel x = .error fault := by
  rw [set, hhome]
  dsimp only
  rw [ht]
  rfl

/-- A color is stored in another space with its channels there. -/
theorem exists_inSpace (ht : c.channelsIn space = .ok t) :
    ∃ d, c.inSpace space = .ok d ∧ d.StoredAlike (ofChannels space t c.alpha c.hue) := by
  by_cases hown : space = c.space
  · subst hown
    cases c.channelsIn_space.symm.trans ht
    exact ⟨c, if_pos rfl, rfl, rfl, rfl⟩
  · exact ⟨ofChannels space t c.alpha c.hue, inSpace_of_ne hown ht, rfl, rfl, rfl⟩

/-- How a channel is read and written that is the entry at `place` of the channels `t` in `space`:
what is written is read again, it replaces this entry and nothing else, what is written last counts,
and to write what was read moves the color to the space and no more. -/
structure ChannelLaws (c : Color Float) (channel : Channel) (space : ColorSpace) (place : Fin 3)
    (t : Triple Float) : Prop where
  get_set : ∀ v, ∃ d, c.set channel v = .ok d ∧ d.get channel = .ok v
  entry : ∀ v d, c.set channel v = .ok d →
    d.space = space ∧ d.channelsIn space = .ok (t.set v place) ∧ d.alpha = c.alpha
  set_set : ∀ v w d, c.set channel v = .ok d →
    ∃ e e', d.set channel w = .ok e ∧ c.set channel w = .ok e' ∧ e.StoredAlike e'
  set_get : ∃ x e e', c.get channel = .ok x ∧ c.set channel x = .ok e ∧
    c.inSpace space = .ok e' ∧ e.StoredAlike e'

theorem channelLaws_of_channelsIn (h : c.IsMade) (hhome : channel.home? = some (space, place))
    (ht : c.channelsIn space = .ok t) : c.ChannelLaws channel space place t := by
  have hset := set_of_channelsIn hhome ht
  have hwritten (v : Float) : (ofChannels space (t.set v place) c.alpha c.hue).channelsIn space =
      .ok (t.set v place) := channelsIn_space _
  refine ⟨fun v => ?_, fun v d hd => ?_, fun v w d hd => ?_, ?_⟩
  · refine ⟨_, hset v, ?_⟩
    rw [(isMade_ofChannels ..).get_of_channelsIn hhome (hwritten v), Triple.get_set]
  · cases (hset v).symm.trans hd
    exact ⟨rfl, hwritten v, rfl⟩
  · cases (hset v).symm.trans hd
    refine ⟨_, _, set_of_channelsIn hhome (hwritten v) w, hset w, rfl, ?_, rfl⟩
    exact t.set_set v w place
  · obtain ⟨e', he', halike⟩ := exists_inSpace ht
    refine ⟨_, _, e', h.get_of_channelsIn hhome ht, hset _, he', ?_⟩
    rw [t.set_get]
    exact ⟨halike.space_eq.symm, halike.channels_eq.symm, halike.alpha_eq.symm⟩

end Color

/-- In every color that operations lead to the hue belongs to the channels, alpha is read and written
apart from the rest, and any other channel as an entry of its triple, as far as the color has
channels in the space of that triple. -/
theorem channelLaws_of_after (space : ColorSpace) (channels : Triple Float) (alpha kept : Float)
    (operations : List (Operation Float)) (c : Color Float)
    (h : (Color.ofChannels space channels alpha kept).after operations = .ok c) :
    (c.hue = match c.space with
      | .rgb => hueOfRgb c.hue c.channels
      | .hsl | .hwb => c.channels.first) ∧
    (∀ v w, c.set .alpha v = .ok (c.withAlpha v) ∧ (c.withAlpha v).get .alpha = .ok v ∧
      (c.withAlpha v).set .alpha w = c.set .alpha w) ∧
    c.get .alpha = .ok c.alpha ∧ c.set .alpha c.alpha = .ok c ∧
    ∀ channel home place, channel.home? = some (home, place) →
      (∀ t, c.channelsIn home = .ok t → c.ChannelLaws channel home place t) ∧
      ∀ fault, c.channelsIn home = .error fault → ∀ v, c.set channel v = .error fault := by
  have hmade := Color.isMade_of_after (Color.isMade_ofChannels ..) h
  have hfaded (v : Float) : (c.withAlpha v).IsMade := by
    obtain ⟨space, channels, alpha, kept, rfl⟩ := hmade
    exact ⟨space, channels, v, kept, rfl⟩
  refine ⟨hmade.hue_eq, fun v w => ⟨hmade.set_alpha v, rfl, ?_⟩, rfl, hmade.set_alpha c.alpha,
    fun channel home place hhome => ⟨fun t ht => Color.channelLaws_of_channelsIn hmade hhome ht,
      fun fault hfault v => Color.set_of_channelsIn_eq_error hhome hfault v⟩⟩
  rw [(hfaded v).set_alpha, hmade.set_alpha]
  rfl

/-- A dark red that is mixed with blue is stored in rgb, and has a whiteness to write. -/
theorem channelLaws_of_after_purple :
    let operations : List (Operation Float) :=
      [.set .lightness 0.25, .mix (.ofChannels .hsl ⟨240, 1, 0.5⟩ 1) 0.5 .rgb false]
    ∃ c t, (Color.ofChannels .rgb ⟨1, 0, 0⟩ 1 0).after operations = .ok c ∧ c.space = .rgb ∧
      c.hue = hueOfRgb c.hue c.channels ∧ c.channelsIn .hwb = .ok t ∧
      c.ChannelLaws .whiteness .hwb 1 t := by
  intro operations
  have hruns : ((Color.ofChannels .rgb ⟨1, 0, 0⟩ 1 0).after operations).toOption.any
      fun c => c.space = .rgb ∧ c.hwb.isOk := by
    decide +kernel
  cases h : (Color.ofChannels .rgb ⟨1, 0, 0⟩ 1 0).after operations with
  | error fault =>
    rw [h] at hruns
    cases hruns
  | ok c =>
    rw [h] at hruns
    obtain ⟨hspace, hhwb⟩ : c.space = .rgb ∧ c.hwb.isOk := by
      simpa [Except.toOption] using hruns
    obtain ⟨t, ht⟩ := isOk_iff_exists.mp hhwb
    obtain ⟨hhue, -, -, -, hlaws⟩ := channelLaws_of_after .rgb ⟨1, 0, 0⟩ 1 0 operations c h
    rw [hspace] at hhue
    exact ⟨c, t, rfl, hspace, hhue, ht, (hlaws .whiteness .hwb 1 rfl).1 t ht⟩

end ColorMod
