import ColorMod.Adjuster

/-!
# Alpha and color

A color is three channels with a hue to remember, and apart from them its alpha.  Every operation on
colors keeps the two apart: with another alpha it does the same (`…_withAlpha`), and the alpha of
the result is that of the color, but for `alpha`, which replaces it, and `blenda`, which mixes it.

* `Color.set_withAlpha`, `Color.mix_withAlpha`, `Color.contrast_withAlpha` and the others: what an
  operation does to a color with another alpha.
* `Adjuster.change_withAlpha`: what an adjuster does to it.
* `Color.IsMade`: colors whose hue belongs to their channels; each operation leads to such a color,
  and to set the alpha of one changes nothing else.
-/

namespace ColorMod

theorem bind_eq_ok_iff {ε β γ : Type} {x : Except ε β} {f : β → Except ε γ} {c : γ} :
    x >>= f = .ok c ↔ ∃ b, x = .ok b ∧ f b = .ok c := by
  cases x with
  | ok b => exact ⟨fun h => ⟨b, rfl, h⟩, fun ⟨_, hb, h⟩ => by cases hb; exact h⟩
  | error e => exact ⟨fun h => (by cases h), fun ⟨_, hb, _⟩ => (by cases hb)⟩

theorem eq_ok_of_return_some {ε β : Type} {x : Except ε β} {b : β}
    (h : (do return some (← x)) = .ok (some b)) : x = .ok b := by
  obtain ⟨b', hx, h⟩ := bind_eq_ok_iff.mp h
  cases h
  exact hx

variable {α : Type} [Scalar α]

namespace Color

/-- The color with another alpha. -/
def withAlpha (c : Color α) (a : α) : Color α :=
  { c with alpha := a }

/-- The colors are alike but for their alpha. -/
structure AlphaApart (c d : Color α) : Prop where
  space_eq : c.space = d.space
  channels_eq : c.channels = d.channels
  hue_eq : c.hue = d.hue

/-- The color is made of parts, so that its hue belongs to its channels. -/
def IsMade (c : Color α) : Prop :=
  ∃ space channels alpha kept, c = ofChannels space channels alpha kept

section

omit [Scalar α]

@[simp] theorem withAlpha_self (c : Color α) : c.withAlpha c.alpha = c := rfl

theorem alphaApart_withAlpha (c : Color α) (a : α) : AlphaApart (c.withAlpha a) c :=
  ⟨rfl, rfl, rfl⟩

end

theorem isMade_ofChannels (space : ColorSpace) (channels : Triple α) (alpha kept : α) :
    (ofChannels space channels alpha kept).IsMade :=
  ⟨space, channels, alpha, kept, rfl⟩

/-! ## Operations on colors with another alpha -/

theorem get_withAlpha (c : Color α) (a : α) {channel : Channel} (h : channel ≠ .alpha) :
    (c.withAlpha a).get channel = c.get channel := by
  cases channel with
  | alpha => exact absurd rfl h
  | _ => rfl

theorem set_withAlpha (c : Color α) (a : α) {channel : Channel} (h : channel ≠ .alpha) (x : α) :
    (c.withAlpha a).set channel x = (withAlpha · a) <$> c.set channel x := by
  cases channel with
  | alpha => exact absurd rfl h
  | _ => simp only [set, Channel.home?, map_bind, map_pure]; rfl

/-- To set alpha changes nothing else of a color that is made of parts. -/
theorem IsMade.set_alpha {c : Color α} (h : c.IsMade) (x : α) :
    c.set .alpha x = .ok (c.withAlpha x) := by
  obtain ⟨space, channels, alpha, kept, rfl⟩ := h
  have hhue : ofChannels space channels x (ofChannels space channels alpha kept).hue =
      ofChannels space channels x kept := by
    cases space with
    | rgb => exact congrArg (Color.mk .rgb channels x) (hueOfRgb_hueOfRgb kept channels)
    | hsl => rfl
    | hwb => rfl
  exact congrArg Except.ok hhue

theorem inSpace_withAlpha (c : Color α) (a : α) (space : ColorSpace) :
    (c.withAlpha a).inSpace space = (withAlpha · a) <$> c.inSpace space := by
  unfold inSpace
  by_cases h : space = c.space
  · rw [if_pos h, if_pos (show space = (c.withAlpha a).space from h)]
    rfl
  · rw [if_neg h, if_neg (show ¬space = (c.withAlpha a).space from h), map_bind]
    rfl

theorem mix_withAlpha (c other : Color α) (a b share : α) (space : ColorSpace) (mixAlpha : Bool) :
    (c.withAlpha a).mix (other.withAlpha b) share space mixAlpha =
      (withAlpha · (if mixAlpha then between share a b else a)) <$>
        c.mix other share space mixAlpha := by
  simp only [mix, inSpace_withAlpha, bind_map_left, map_bind, map_pure]
  rfl

theorem blend_withAlpha (c other : Color α) (a b share : α) (space : ColorSpace) :
    (c.withAlpha a).blend (other.withAlpha b) share space =
      (withAlpha · a) <$> c.blend other share space :=
  mix_withAlpha c other a b share space false

theorem shade_withAlpha (c : Color α) (a share : α) :
    (c.withAlpha a).shade share = (withAlpha · a) <$> c.shade share := by
  simp only [shade, inSpace_withAlpha, bind_map_left, map_bind]
  exact bind_congr fun d => d.blend_withAlpha (ofChannels .hwb ⟨0, 0, 1⟩ 1) a 1 share .rgb

theorem tint_withAlpha (c : Color α) (a share : α) :
    (c.withAlpha a).tint share = (withAlpha · a) <$> c.tint share := by
  simp only [tint, inSpace_withAlpha, bind_map_left, map_bind]
  exact bind_congr fun d => d.blend_withAlpha (ofChannels .hwb ⟨0, 1, 0⟩ 1) a 1 share .rgb

section

variable [LightCurve α]

theorem contrastWith_withAlpha (c other : Color α) (a b : α) :
    (c.withAlpha a).contrastWith (other.withAlpha b) = c.contrastWith other := rfl

theorem leastReadable_withAlpha (c start goal : Color α) (a b d : α) (steps : Nat) (low high : α) :
    (c.withAlpha a).leastReadable (start.withAlpha b) (goal.withAlpha d) steps low high =
      c.leastReadable start goal steps low high := by
  induction steps generalizing low high with
  | zero => rfl
  | succ steps ih =>
    simp only [leastReadable, blend_withAlpha, bind_map_left, contrastWith_withAlpha, ih]

theorem nearestReadable_withAlpha (c goal : Color α) (a b : α) :
    (c.withAlpha a).nearestReadable (goal.withAlpha b) =
      (withAlpha · a) <$> c.nearestReadable goal := by
  simp only [nearestReadable, inSpace_withAlpha, bind_map_left, leastReadable_withAlpha,
    blend_withAlpha, map_bind]

theorem contrastGoal_withAlpha (c : Color α) (a : α) :
    (c.withAlpha a).contrastGoal = (withAlpha · a) <$> c.contrastGoal := by
  simp only [contrastGoal, map_bind, map_pure]
  rfl

theorem contrast_withAlpha (c : Color α) (a share : α) :
    (c.withAlpha a).contrast share = (withAlpha · a) <$> c.contrast share := by
  simp only [contrast, contrastGoal_withAlpha, bind_map_left, contrastWith_withAlpha, map_bind]
  refine bind_congr fun goal => bind_congr fun ratio => ?_
  split
  · simp only [nearestReadable_withAlpha, bind_map_left, blend_withAlpha, map_bind]
  · simp only [pure_bind, blend_withAlpha]

end

/-! ## Operations lead to colors that are made of parts -/

section

variable {c d : Color α}

theorem isMade_of_set {channel : Channel} {x : α} (h : c.set channel x = .ok d) : d.IsMade := by
  unfold set at h
  split at h
  · obtain ⟨t, -, h⟩ := bind_eq_ok_iff.mp h
    cases h
    exact isMade_ofChannels ..
  · cases h
    exact isMade_ofChannels ..

theorem isMade_of_mix {other : Color α} {share : α} {space : ColorSpace} {mixAlpha : Bool}
    (h : c.mix other share space mixAlpha = .ok d) : d.IsMade := by
  obtain ⟨start, -, h⟩ := bind_eq_ok_iff.mp h
  obtain ⟨goal, -, h⟩ := bind_eq_ok_iff.mp h
  cases h
  exact isMade_ofChannels ..

theorem isMade_of_shade {share : α} (h : c.shade share = .ok d) : d.IsMade := by
  obtain ⟨start, -, h⟩ := bind_eq_ok_iff.mp h
  exact isMade_of_mix h

theorem isMade_of_tint {share : α} (h : c.tint share = .ok d) : d.IsMade := by
  obtain ⟨start, -, h⟩ := bind_eq_ok_iff.mp h
  exact isMade_of_mix h

theorem isMade_of_contrast [LightCurve α] {share : α} (h : c.contrast share = .ok d) :
    d.IsMade := by
  obtain ⟨goal, -, h⟩ := bind_eq_ok_iff.mp h
  obtain ⟨ratio, -, h⟩ := bind_eq_ok_iff.mp h
  dsimp only at h
  split at h
  · obtain ⟨start, -, h⟩ := bind_eq_ok_iff.mp h
    exact isMade_of_mix h
  · exact isMade_of_mix h

end

end Color

/-! ## Adjusters -/

namespace Adjuster

/-- The alpha that the values of a form lead to. -/
def alphaAfter (adjuster : Adjuster) (values : List (Value α)) (present : α) : α :=
  match adjuster, values with
  | channel .alpha, values => (newValue? present values).getD present
  | blendAlpha, [.color other, .number share, .space _]
  | blendAlpha, [.color other, .number share] => Color.between share present other.alpha
  | _, _ => present

theorem changeChannel_withAlpha {ch : Channel} (h : ch ≠ .alpha) (c : Color α) (a : α)
    (values : List (Value α)) :
    changeChannel ch (c.withAlpha a) values =
      Option.map (·.withAlpha a) <$> changeChannel ch c values := by
  simp only [changeChannel, c.get_withAlpha a h, map_bind]
  refine bind_congr fun present => ?_
  cases newValue? present values with
  | none => rfl
  | some x => simp only [c.set_withAlpha a h, bind_map_left, map_bind, map_pure, Option.map_some]

theorem changeChannel_alpha_withAlpha (c : Color α) (a : α) (values : List (Value α)) :
    changeChannel .alpha (c.withAlpha a) values =
      Option.map (·.withAlpha ((newValue? a values).getD a)) <$> changeChannel .alpha c values := by
  unfold changeChannel newValue?
  split <;> rfl

theorem changeRgb_withAlpha (c : Color α) (a : α) (values : List (Value α)) :
    changeRgb (c.withAlpha a) values = Option.map (·.withAlpha a) <$> changeRgb c values := by
  simp only [changeRgb, map_bind]
  refine bind_congr fun present => ?_
  split
  · rfl
  · simp only [map_bind]
    rfl
  · rfl
  · rfl

theorem mixWith_withAlpha (mixAlpha : Bool) (c : Color α) (a : α) (values : List (Value α)) :
    mixWith mixAlpha (c.withAlpha a) values =
      Option.map (·.withAlpha (if mixAlpha then blendAlpha.alphaAfter values a else a)) <$>
        mixWith mixAlpha c values := by
  have hmix := fun (other : Color α) share space =>
    c.mix_withAlpha other a other.alpha share space mixAlpha
  simp only [Color.withAlpha_self] at hmix
  unfold mixWith alphaAfter
  split
  · simp only [hmix, bind_map_left, map_bind, map_pure, Option.map_some]
  · simp only [hmix, bind_map_left, map_bind, map_pure, Option.map_some]
  · rfl

/-- What an adjuster does to a color with another alpha: the same, and the alpha comes out as from
that alpha. -/
theorem change_withAlpha [LightCurve α] (adjuster : Adjuster) (c : Color α) (a : α)
    (values : List (Value α)) :
    adjuster.change (c.withAlpha a) values =
      Option.map (·.withAlpha (adjuster.alphaAfter values a)) <$> adjuster.change c values := by
  have hkeeps : ∀ f : Color α → Except ArithmeticFault (Color α),
      f (c.withAlpha a) = (·.withAlpha a) <$> f c →
      (do return some (← f (c.withAlpha a))) =
        Option.map (·.withAlpha a) <$> (do return some (← f c) : Except _ _) := by
    intro f hf
    simp only [hf, bind_map_left, map_bind, map_pure, Option.map_some]
  unfold change
  split
  · next ch =>
    by_cases h : ch = .alpha
    · subst h
      exact changeChannel_alpha_withAlpha c a values
    · have hsame : (channel ch).alphaAfter values a = a := by
        cases ch with
        | alpha => exact absurd rfl h
        | _ => rfl
      rw [hsame]
      exact changeChannel_withAlpha h c a values
  · exact changeRgb_withAlpha c a values
  · next share => exact hkeeps (·.shade share) (c.shade_withAlpha a share)
  · next share => exact hkeeps (·.tint share) (c.tint_withAlpha a share)
  · exact mixWith_withAlpha false c a values
  · exact mixWith_withAlpha true c a values
  · next share => exact hkeeps (·.contrast share) (c.contrast_withAlpha a share)
  · exact hkeeps (·.contrast 1) (c.contrast_withAlpha a 1)
  · rfl

/-- An adjuster that leads to no color leads to no alpha of its own. -/
theorem alphaAfter_of_change_eq_none [LightCurve α] {adjuster : Adjuster} {c : Color α}
    {values : List (Value α)} (h : adjuster.change c values = .ok none) (a : α) :
    adjuster.alphaAfter values a = a := by
  unfold alphaAfter newValue?
  split
  · split
    · cases h
    · cases h
    · rfl
  · obtain ⟨d, -, h⟩ := bind_eq_ok_iff.mp h
    cases h
  · obtain ⟨d, -, h⟩ := bind_eq_ok_iff.mp h
    cases h
  · rfl

theorem alphaAfter_eq_self {adjuster : Adjuster} (halpha : adjuster ≠ channel .alpha)
    (hblend : adjuster ≠ blendAlpha) (values : List (Value α)) (a : α) :
    adjuster.alphaAfter values a = a := by
  unfold alphaAfter
  split
  · exact absurd rfl halpha
  · exact absurd rfl hblend
  · exact absurd rfl hblend
  · rfl

section

variable {c d : Color α} {values : List (Value α)}

theorem isMade_of_changeChannel {ch : Channel} (h : changeChannel ch c values = .ok (some d)) :
    d.IsMade := by
  obtain ⟨present, -, h⟩ := bind_eq_ok_iff.mp h
  split at h
  · exact Color.isMade_of_set (eq_ok_of_return_some h)
  · cases h

theorem isMade_of_changeRgb (h : changeRgb c values = .ok (some d)) : d.IsMade := by
  obtain ⟨present, -, h⟩ := bind_eq_ok_iff.mp h
  split at h
  · cases h
    exact Color.isMade_ofChannels ..
  · obtain ⟨other, -, h⟩ := bind_eq_ok_iff.mp h
    cases h
    exact Color.isMade_ofChannels ..
  · cases h
    exact Color.isMade_ofChannels ..
  · cases h

theorem isMade_of_mixWith {mixAlpha : Bool} (h : mixWith mixAlpha c values = .ok (some d)) :
    d.IsMade := by
  unfold mixWith at h
  split at h
  · exact Color.isMade_of_mix (eq_ok_of_return_some h)
  · exact Color.isMade_of_mix (eq_ok_of_return_some h)
  · cases h

/-- What an adjuster leads to is made of parts. -/
theorem isMade_of_change [LightCurve α] {adjuster : Adjuster}
    (h : adjuster.change c values = .ok (some d)) : d.IsMade := by
  unfold change at h
  split at h
  · exact isMade_of_changeChannel h
  · exact isMade_of_changeRgb h
  · exact Color.isMade_of_shade (eq_ok_of_return_some h)
  · exact Color.isMade_of_tint (eq_ok_of_return_some h)
  · exact isMade_of_mixWith h
  · exact isMade_of_mixWith h
  · exact Color.isMade_of_contrast (eq_ok_of_return_some h)
  · exact Color.isMade_of_contrast (eq_ok_of_return_some h)
  · cases h

/-- The adjuster of alpha leads to a color that is the same but for alpha. -/
theorem eq_withAlpha_of_change [LightCurve α] (hc : c.IsMade)
    (h : (channel .alpha).change c values = .ok (some d)) : ∃ x, d = c.withAlpha x := by
  obtain ⟨present, -, h⟩ := bind_eq_ok_iff.mp h
  split at h
  · next x _ =>
    have hset := hc.set_alpha x
    have hd : c.set .alpha x = .ok d := eq_ok_of_return_some h
    exact ⟨x, Except.ok.inj (hd.symm.trans hset)⟩
  · cases h

end

end Adjuster

end ColorMod
