import ColorMod.Adjuster
import ColorMod.Color.Written
import ColorMod.Proofs.Doubles

/-!
# Which colors can be converted

Two conversions can fail.  Leaving hsl or hwb fails for a hue that is not finite, unless whiteness
and blackness fill the color up.  Going to hsl divides by one minus the distance of the lightness
from the middle, and fails for channels that are not all equal while the lightness comes out as 0 or
1 (`Triple.Flat`): that is how doubles show a color that is almost black or almost white.

* `Color.Converts`: a color has channels in a space, with `channelsIn_isOk_iff`.
* `Adjuster.Computes`: the conversions that an adjuster makes, with `change_isOk_iff`.
* `toCss_isOk_iff`: a color can be written when it converts to the space of the format.
-/

namespace ColorMod

open Scalar

theorem isOk_bind_iff {β γ : Type} {x : Except ArithmeticFault β}
    {f : β → Except ArithmeticFault γ} :
    (x >>= f).isOk ↔ ∃ b, x = .ok b ∧ (f b).isOk := by
  cases x with
  | ok b => exact ⟨fun h => ⟨b, rfl, h⟩, fun ⟨_, hb, h⟩ => by cases hb; exact h⟩
  | error e => exact ⟨fun h => (by cases h), fun ⟨_, hb, _⟩ => (by cases hb)⟩

theorem isOk_iff_exists {β : Type} {x : Except ArithmeticFault β} : x.isOk ↔ ∃ b, x = .ok b := by
  cases x with
  | ok b => exact ⟨fun _ => ⟨b, rfl⟩, fun _ => rfl⟩
  | error e => exact ⟨fun h => (by cases h), fun ⟨_, h⟩ => (by cases h)⟩

/-- A computation that only goes on with a value fails where the value does. -/
theorem isOk_bind_pure_iff {β γ : Type} {x : Except ArithmeticFault β} {f : β → γ} :
    (x >>= fun b => pure (f b)).isOk ↔ x.isOk := by
  cases x <;> exact Iff.rfl

/-! ## Conversions -/

/-- The channels differ, but so little that the lightness between them is 0 or 1 in doubles. -/
def Triple.Flat (rgb : Triple Float) : Prop :=
  let rgb := rgb.map clamp
  let lightness := (rgb.largest + rgb.smallest) / 2
  ¬(rgb.largest - rgb.smallest == 0) ∧ 1 - magnitude (2 * lightness - 1) == 0

theorem sextant_isOk_iff (sixths : Float) : (sextant sixths).isOk ↔ sixths == sixths := by
  unfold sextant
  split
  · next h => exact ⟨fun _ => h, fun _ => rfl⟩
  · next h => exact ⟨fun h' => (by cases h'), fun h' => absurd h' h⟩

theorem divide_isOk_iff (x y : Float) : (divide x y).isOk ↔ ¬(y == 0) := by
  unfold divide
  split
  · next h => exact ⟨fun h' => (by cases h'), fun h' => absurd h h'⟩
  · next h => exact ⟨fun _ => h, fun _ => rfl⟩

theorem hslOfRgb_isOk_iff (kept : Float) (rgb : Triple Float) :
    (hslOfRgb kept rgb).isOk ↔ ¬rgb.Flat := by
  unfold hslOfRgb Triple.Flat
  dsimp only
  split
  · next h => exact ⟨fun _ hflat => hflat.1 h, fun _ => rfl⟩
  · next h =>
    rw [isOk_bind_pure_iff, divide_isOk_iff]
    exact ⟨fun hne hflat => hne hflat.2, fun hflat hzero => hflat ⟨h, hzero⟩⟩

theorem rgbOfHsl_isOk_iff (hsl : Triple Float) :
    (rgbOfHsl hsl).isOk ↔ (value? hsl.first).isSome := by
  unfold rgbOfHsl
  dsimp only
  rw [isOk_bind_pure_iff, sextant_isOk_iff]
  exact (Double.sixths_beq_self_iff hsl.first) ▸ Iff.rfl

theorem rgbOfHwb_isOk_iff (hwb : Triple Float) :
    (rgbOfHwb hwb).isOk ↔
      1 ≤ clamp hwb.second + clamp hwb.third ∨ (value? hwb.first).isSome := by
  unfold rgbOfHwb
  dsimp only
  split
  · next h => exact ⟨fun _ => .inl h, fun _ => rfl⟩
  · next h =>
    rw [isOk_bind_pure_iff, rgbOfHsl_isOk_iff]
    exact ⟨.inr, fun h' => h'.resolve_left h⟩

/-! ## Colors -/

namespace Color

variable (c : Color Float)

/-- The color has rgb channels: its hue is finite, or it needs none. -/
def HasRgb : Prop :=
  match c.space with
  | .rgb => True
  | .hsl => (value? c.channels.first).isSome
  | .hwb => 1 ≤ clamp c.channels.second + clamp c.channels.third ∨ (value? c.channels.first).isSome

/-- The color has channels in a space. -/
def Converts : ColorSpace → Prop
  | .rgb => c.HasRgb
  | .hsl => c.space ≠ .hsl → ∃ rgb, c.rgb = .ok rgb ∧ ¬rgb.Flat
  | .hwb => c.space ≠ .hwb → c.HasRgb

theorem rgb_isOk_iff : c.rgb.isOk ↔ c.HasRgb := by
  unfold Color.rgb HasRgb
  cases c.space with
  | rgb => exact ⟨fun _ => trivial, fun _ => rfl⟩
  | hsl => exact rgbOfHsl_isOk_iff c.channels
  | hwb => exact rgbOfHwb_isOk_iff c.channels

theorem hsl_isOk_iff : c.hsl.isOk ↔ c.Converts .hsl := by
  unfold Color.hsl
  split
  · next h => exact ⟨fun _ hne => absurd h hne, fun _ => rfl⟩
  · next h =>
    rw [isOk_bind_iff]
    simp only [hslOfRgb_isOk_iff]
    exact ⟨fun hrgb _ => hrgb, fun hrgb => hrgb h⟩

theorem hwb_isOk_iff : c.hwb.isOk ↔ c.Converts .hwb := by
  unfold Color.hwb
  split
  · next h => exact ⟨fun _ hne => absurd h hne, fun _ => rfl⟩
  · next h =>
    rw [isOk_bind_pure_iff, rgb_isOk_iff]
    exact ⟨fun hrgb _ => hrgb, fun hrgb => hrgb h⟩

theorem channelsIn_isOk_iff (space : ColorSpace) :
    (c.channelsIn space).isOk ↔ c.Converts space := by
  cases space with
  | rgb => exact c.rgb_isOk_iff
  | hsl => exact c.hsl_isOk_iff
  | hwb => exact c.hwb_isOk_iff

/-- A color has channels in its own space. -/
theorem converts_self : c.Converts c.space := by
  rw [← channelsIn_isOk_iff]
  obtain ⟨space, channels, alpha, hue⟩ := c
  cases space <;> rfl

theorem inSpace_isOk_iff (space : ColorSpace) : (c.inSpace space).isOk ↔ c.Converts space := by
  unfold inSpace
  split
  · next h => exact ⟨fun _ => h ▸ c.converts_self, fun _ => rfl⟩
  · rw [isOk_bind_pure_iff, channelsIn_isOk_iff]

theorem space_of_inSpace {α : Type} [Scalar α] {c d : Color α} {space : ColorSpace}
    (h : c.inSpace space = .ok d) : d.space = space := by
  unfold inSpace at h
  split at h
  · next hspace => cases h; exact hspace.symm
  · cases hchannels : c.channelsIn space with
    | error e => rw [hchannels] at h; cases h
    | ok channels => rw [hchannels] at h; cases h; rfl

/-! ## Channels and mixing -/

/-- The channel can be written, which moves the color to the space of the channel. -/
def Moves (channel : Channel) : Prop :=
  ∀ home, channel.home? = some home → c.Converts home.1

/-- The channel can be read; an rgb color knows its hue. -/
def Reads (channel : Channel) : Prop :=
  channel = .hue ∧ c.space = .rgb ∨ c.Moves channel

/-- Apart from the hue of an rgb color a channel is read in the space that owns it. -/
theorem get_eq {α : Type} [Scalar α] {c : Color α} {channel : Channel} (h : ¬(channel = .hue ∧ c.space = .rgb)) :
    c.get channel = match channel.home? with
      | some (space, place) => do return (← c.channelsIn space).get place
      | none => .ok c.alpha := by
  obtain ⟨space, channels, alpha, hue⟩ := c
  cases channel <;> cases space <;> first | rfl | exact absurd ⟨rfl, rfl⟩ h

theorem get_isOk_iff (channel : Channel) : (c.get channel).isOk ↔ c.Reads channel := by
  unfold Reads Moves
  by_cases hrgb : channel = .hue ∧ c.space = .rgb
  · have hget : c.get channel = .ok c.hue := by
      simp only [Color.get, hrgb.1, hrgb.2]
    exact ⟨fun _ => .inl hrgb, fun _ => by rw [hget]; rfl⟩
  · rw [get_eq hrgb]
    cases hhome : channel.home? with
    | none => exact ⟨fun _ => .inr fun home h => (by cases h), fun _ => rfl⟩
    | some home =>
      obtain ⟨space, place⟩ := home
      dsimp only
      rw [isOk_bind_pure_iff, channelsIn_isOk_iff]
      constructor
      · intro h
        exact .inr fun home hsome => by cases hsome; exact h
      · intro h
        exact h.resolve_left hrgb _ rfl

theorem set_isOk_iff (channel : Channel) (x : Float) :
    (c.set channel x).isOk ↔ c.Moves channel := by
  unfold Color.set Moves
  cases hhome : channel.home? with
  | none => exact ⟨fun _ home h => (by cases h), fun _ => rfl⟩
  | some home =>
    obtain ⟨space, place⟩ := home
    dsimp only
    rw [isOk_bind_pure_iff, channelsIn_isOk_iff]
    constructor
    · intro h home hsome
      cases hsome
      exact h
    · intro h
      exact h _ rfl

theorem mix_isOk_iff (other : Color Float) (share : Float) (space : ColorSpace) (mixAlpha : Bool) :
    (c.mix other share space mixAlpha).isOk ↔ c.Converts space ∧ other.Converts space := by
  unfold mix
  rw [isOk_bind_iff]
  simp only [isOk_bind_pure_iff, inSpace_isOk_iff]
  rw [exists_and_right, ← isOk_iff_exists, inSpace_isOk_iff]

/-- The color has hwb channels, and as a color in hwb it has rgb channels. -/
def Shades : Prop :=
  ∃ d, c.inSpace .hwb = .ok d ∧ d.HasRgb

theorem shade_isOk_iff (share : Float) : (c.shade share).isOk ↔ c.Shades := by
  unfold shade Shades blend
  rw [isOk_bind_iff]
  simp only [mix_isOk_iff, Converts]
  have hblack : HasRgb (ofChannels .hwb ⟨0, 0, 1⟩ 1) := .inl (by decide +kernel)
  simp only [hblack, and_true]

theorem tint_isOk_iff (share : Float) : (c.tint share).isOk ↔ c.Shades := by
  unfold tint Shades blend
  rw [isOk_bind_iff]
  simp only [mix_isOk_iff, Converts]
  have hwhite : HasRgb (ofChannels .hwb ⟨0, 1, 0⟩ 1) := .inl (by decide +kernel)
  simp only [hwhite, and_true]

/-! ## Contrast -/

/-- The light of the other color can be compared with the color's own: both have rgb channels, and
the ratio does not divide by zero. -/
structure Compares (other : Color Float) : Prop where
  hasRgb : c.HasRgb
  other_hasRgb : other.HasRgb
  divisor : ∀ light₁ light₂, c.luminance = .ok light₁ → other.luminance = .ok light₂ →
    ¬(smaller light₁ light₂ + 0.05 == 0)

theorem luminance_isOk_iff : c.luminance.isOk ↔ c.HasRgb := by
  rw [luminance, isOk_bind_pure_iff, rgb_isOk_iff]

theorem contrastWith_isOk_iff (other : Color Float) :
    (c.contrastWith other).isOk ↔ c.Compares other := by
  unfold contrastWith contrastRatio
  rw [isOk_bind_iff]
  simp only [isOk_bind_iff, divide_isOk_iff]
  constructor
  · rintro ⟨light₁, h₁, light₂, h₂, hdivisor⟩
    refine ⟨?_, ?_, fun l₁ l₂ hl₁ hl₂ => ?_⟩
    · rw [← luminance_isOk_iff, h₁]; rfl
    · rw [← luminance_isOk_iff, h₂]; rfl
    · rw [h₁] at hl₁
      rw [h₂] at hl₂
      cases hl₁
      cases hl₂
      exact hdivisor
  · rintro ⟨hc, hother, hdivisor⟩
    obtain ⟨light₁, h₁⟩ := isOk_iff_exists.mp ((luminance_isOk_iff c).mpr hc)
    obtain ⟨light₂, h₂⟩ := isOk_iff_exists.mp ((luminance_isOk_iff other).mpr hother)
    exact ⟨light₁, h₁, light₂, h₂, hdivisor light₁ light₂ h₁ h₂⟩

/-- The color at a share of the way between two colors in hwb. -/
def onLine (start goal : Color Float) (share : Float) : Color Float :=
  ofChannels .hwb (start.channels.zipWith (between share) goal.channels) start.alpha start.hue

theorem blend_hwb {start goal : Color Float} (hstart : start.space = .hwb)
    (hgoal : goal.space = .hwb) (share : Float) :
    start.blend goal share .hwb = .ok (start.onLine goal share) := by
  rw [blend, mix, inSpace, inSpace, if_pos hstart.symm, if_pos hgoal.symm]
  rfl

/-- The colors that the search for the least readable contrast compares, as far as it comes. -/
def compared (c start goal : Color Float) : Nat → Float → Float → List (Color Float)
  | 0, _, _ => []
  | steps + 1, low, high =>
    let middle := (low + high) / 2
    let color := start.onLine goal middle
    color :: match c.contrastWith color with
      | .ok ratio =>
        if readableRatio ≤ ratio then compared c start goal steps low middle
        else compared c start goal steps middle high
      | .error _ => []

theorem leastReadable_isOk_iff {start goal : Color Float} (hstart : start.space = .hwb)
    (hgoal : goal.space = .hwb) (steps : Nat) (low high : Float) :
    (c.leastReadable start goal steps low high).isOk ↔
      ∀ d ∈ c.compared start goal steps low high, c.Compares d := by
  induction steps generalizing low high with
  | zero => exact ⟨fun _ d hd => (by cases hd), fun _ => rfl⟩
  | succ steps ih =>
    rw [leastReadable, blend_hwb hstart hgoal, compared, List.forall_mem_cons, ← contrastWith_isOk_iff]
    change (c.contrastWith (start.onLine goal ((low + high) / 2)) >>= _).isOk ↔ _
    cases hratio : c.contrastWith (start.onLine goal ((low + high) / 2)) with
    | error e => exact ⟨fun h => (by cases h), fun h => (by cases h.1)⟩
    | ok ratio =>
      have hhead : (Except.ok ratio : Except ArithmeticFault Float).isOk := rfl
      simp only [hhead, true_and]
      change (if readableRatio ≤ ratio then _ else _ : Except ArithmeticFault Float).isOk ↔ _
      split
      · exact ih low _
      · exact ih _ high

/-- The contrast of the color can be found: the color has rgb and hwb channels, and it can be
compared with its goal and, if that is readable, with the colors on the way there. -/
structure Contrasts : Prop where
  hasRgb : c.HasRgb
  compares : ∀ goal, c.contrastGoal = .ok goal → c.Compares goal
  search : ∀ goal start ratio, c.contrastGoal = .ok goal → c.inSpace .hwb = .ok start →
    c.contrastWith goal = .ok ratio → readableRatio < ratio →
    ∀ d ∈ c.compared start goal searchSteps 0 1, c.Compares d

theorem HasRgb.converts_hwb {c : Color Float} (h : c.HasRgb) : c.Converts .hwb :=
  fun _ => h

theorem contrastGoal_isOk_iff : c.contrastGoal.isOk ↔ c.HasRgb := by
  unfold contrastGoal
  rw [isOk_bind_iff]
  simp only [isOk_bind_pure_iff, luminance_isOk_iff, exists_and_right]
  rw [← isOk_iff_exists, hwb_isOk_iff]
  exact ⟨fun h => h.2, fun h => ⟨h.converts_hwb, h⟩⟩

theorem space_of_contrastGoal {c goal : Color Float} (h : c.contrastGoal = .ok goal) :
    goal.space = .hwb := by
  unfold contrastGoal at h
  cases hhwb : c.hwb with
  | error e => rw [hhwb] at h; cases h
  | ok hwb =>
    cases hlight : c.luminance with
    | error e => rw [hhwb, hlight] at h; cases h
    | ok light => rw [hhwb, hlight] at h; cases h; rfl

theorem nearestReadable_isOk_iff {goal : Color Float} (hgoal : goal.space = .hwb) :
    (c.nearestReadable goal).isOk ↔
      ∃ start, c.inSpace .hwb = .ok start ∧
        ∀ d ∈ c.compared start goal searchSteps 0 1, c.Compares d := by
  unfold nearestReadable
  rw [isOk_bind_iff]
  refine exists_congr fun start => and_congr_right fun hstart => ?_
  have hspace := space_of_inSpace hstart
  rw [← leastReadable_isOk_iff c hspace hgoal, isOk_bind_iff]
  simp only [blend_hwb hspace hgoal]
  rw [isOk_iff_exists]
  exact exists_congr fun share => and_iff_left rfl

theorem space_of_nearestReadable {c goal d : Color Float} (hgoal : goal.space = .hwb)
    (h : c.nearestReadable goal = .ok d) : d.space = .hwb := by
  unfold nearestReadable at h
  cases hstart : c.inSpace .hwb with
  | error e => rw [hstart] at h; cases h
  | ok start =>
    rw [hstart] at h
    change (c.leastReadable start goal searchSteps 0 1 >>= _) = _ at h
    cases hshare : c.leastReadable start goal searchSteps 0 1 with
    | error e => rw [hshare] at h; cases h
    | ok share =>
      rw [hshare] at h
      change start.blend goal share .hwb = .ok d at h
      rw [blend_hwb (space_of_inSpace hstart) hgoal] at h
      cases h
      rfl

theorem contrast_eq {α : Type} [Scalar α] [LightCurve α] (c : Color α) (share : α) :
    c.contrast share = c.contrastGoal >>= fun goal => c.contrastWith goal >>= fun ratio =>
      (if readableRatio < ratio then c.nearestReadable goal else pure goal) >>= fun start =>
        start.blend goal share .hwb := by
  unfold contrast
  refine congrArg _ (funext fun goal => congrArg _ (funext fun ratio => ?_))
  split <;> rfl

theorem contrast_isOk_iff (share : Float) : (c.contrast share).isOk ↔ c.Contrasts := by
  rw [contrast_eq, isOk_bind_iff]
  constructor
  · rintro ⟨goal, hgoal, h⟩
    obtain ⟨ratio, hratio, h⟩ := isOk_bind_iff.mp h
    obtain ⟨start', hstart', -⟩ := isOk_bind_iff.mp h
    refine ⟨?_, fun goal' hgoal' => ?_, fun goal' start ratio' hgoal' hstart hratio' hlt => ?_⟩
    · rw [← contrastGoal_isOk_iff, hgoal]; rfl
    · cases hgoal.symm.trans hgoal'
      rw [← contrastWith_isOk_iff, hratio]; rfl
    · cases hgoal.symm.trans hgoal'
      cases hratio.symm.trans hratio'
      rw [if_pos hlt] at hstart'
      have hnear := (nearestReadable_isOk_iff c (space_of_contrastGoal hgoal)).mp
        (isOk_iff_exists.mpr ⟨_, hstart'⟩)
      obtain ⟨start', hstart'', hcompared⟩ := hnear
      cases hstart.symm.trans hstart''
      exact hcompared
  · rintro ⟨hrgb, hcompares, hsearch⟩
    obtain ⟨goal, hgoal⟩ := isOk_iff_exists.mp ((contrastGoal_isOk_iff c).mpr hrgb)
    have hspace := space_of_contrastGoal hgoal
    obtain ⟨ratio, hratio⟩ :=
      isOk_iff_exists.mp ((contrastWith_isOk_iff c goal).mpr (hcompares goal hgoal))
    refine ⟨goal, hgoal, isOk_bind_iff.mpr ⟨ratio, hratio, ?_⟩⟩
    by_cases hlt : readableRatio < ratio
    · rw [if_pos hlt]
      obtain ⟨start, hstart⟩ :=
        isOk_iff_exists.mp ((inSpace_isOk_iff c .hwb).mpr hrgb.converts_hwb)
      obtain ⟨near, hnear⟩ := isOk_iff_exists.mp <| (nearestReadable_isOk_iff c hspace).mpr
        ⟨start, hstart, hsearch goal start ratio hgoal hstart hratio hlt⟩
      refine isOk_bind_iff.mpr ⟨near, hnear, ?_⟩
      rw [blend_hwb (space_of_nearestReadable hspace hnear) hspace]
      rfl
    · rw [if_neg hlt]
      refine isOk_bind_iff.mpr ⟨goal, rfl, ?_⟩
      rw [blend_hwb hspace hspace]
      rfl

end Color

/-! ## Adjusters -/

namespace Adjuster

/-- What has to be converted for a channel adjuster. -/
def ComputesChannel (ch : Channel) (c : Color Float) : List (Value Float) → Prop
  | [.number _] | [.operator _, .number _] => c.Moves ch
  | _ => c.Reads ch

/-- What has to be converted for an adjuster of all rgb channels. -/
def ComputesRgb (c : Color Float) : List (Value Float) → Prop
  | [.operator _, .color other] => c.HasRgb ∧ other.HasRgb
  | _ => c.HasRgb

/-- What has to be converted for a mix. -/
def ComputesMix (c : Color Float) : List (Value Float) → Prop
  | [.color other, .number _, .space space] => c.Converts space ∧ other.Converts space
  | [.color other, .number _] => c.HasRgb ∧ other.HasRgb
  | _ => True

/-- The conversions that an adjuster makes of a color, and of the color among its values, can be
made. -/
def Computes (adjuster : Adjuster) (c : Color Float) (values : List (Value Float)) : Prop :=
  match adjuster, values with
  | channel ch, values => ComputesChannel ch c values
  | rgb, values => ComputesRgb c values
  | shade, [.number _] | tint, [.number _] => c.Shades
  | blend, values | blendAlpha, values => ComputesMix c values
  | contrast, [.number _] | contrast, [] => c.Contrasts
  | _, _ => True

variable (c : Color Float)

/-- To change a channel is to read it and to write it. -/
theorem setsChannel_isOk_iff (ch : Channel) (f : Float → Float) :
    (c.get ch >>= fun present => c.set ch (f present) >>= fun d => pure (some d)).isOk ↔
      c.Moves ch := by
  rw [isOk_bind_iff]
  simp only [isOk_bind_pure_iff, Color.set_isOk_iff]
  rw [exists_and_right, ← isOk_iff_exists, Color.get_isOk_iff]
  exact ⟨fun h => h.2, fun h => ⟨.inr h, h⟩⟩

theorem changeChannel_isOk_iff (ch : Channel) (values : List (Value Float)) :
    (changeChannel ch c values).isOk ↔ ComputesChannel ch c values := by
  unfold changeChannel ComputesChannel
  split
  · next x => exact setsChannel_isOk_iff c ch fun _ => stored ch x
  · next op x => exact setsChannel_isOk_iff c ch fun present => stored ch (op.apply present x)
  · next hlone hafter =>
    have hnone : ∀ present, newValue? present values = none := by
      intro present
      unfold newValue?
      split
      · exact absurd rfl (hafter _ _)
      · exact absurd rfl (hlone _)
      · rfl
    simp only [hnone]
    exact isOk_bind_pure_iff.trans (Color.get_isOk_iff c ch)

theorem changeRgb_isOk_iff (values : List (Value Float)) :
    (changeRgb c values).isOk ↔ ComputesRgb c values := by
  unfold changeRgb
  split
  · exact isOk_bind_pure_iff.trans c.rgb_isOk_iff
  · next op other =>
    rw [isOk_bind_iff]
    simp only [isOk_bind_pure_iff]
    rw [exists_and_right, ← isOk_iff_exists, Color.rgb_isOk_iff, Color.rgb_isOk_iff]
    exact Iff.rfl
  · exact isOk_bind_pure_iff.trans c.rgb_isOk_iff
  · next hcolor _ =>
    have hother : ComputesRgb c values = c.HasRgb := by
      unfold ComputesRgb
      split
      · exact absurd rfl (hcolor _ _)
      · rfl
    rw [hother]
    exact isOk_bind_pure_iff.trans c.rgb_isOk_iff

theorem mixWith_isOk_iff (mixAlpha : Bool) (values : List (Value Float)) :
    (mixWith mixAlpha c values).isOk ↔ ComputesMix c values := by
  unfold mixWith
  split
  · exact isOk_bind_pure_iff.trans (c.mix_isOk_iff ..)
  · exact isOk_bind_pure_iff.trans (c.mix_isOk_iff ..)
  · next hspace hplain =>
    have hother : ComputesMix c values = True := by
      unfold ComputesMix
      split
      · exact absurd rfl (hspace _ _ _)
      · exact absurd rfl (hplain _ _)
      · rfl
    rw [hother]
    exact ⟨fun _ => trivial, fun _ => rfl⟩

/-- An adjuster fails just when a conversion that it makes does. -/
theorem change_isOk_iff (adjuster : Adjuster) (values : List (Value Float)) :
    (adjuster.change c values).isOk ↔ adjuster.Computes c values := by
  unfold change
  split
  · exact changeChannel_isOk_iff c _ values
  · exact changeRgb_isOk_iff c values
  · exact isOk_bind_pure_iff.trans (c.shade_isOk_iff _)
  · exact isOk_bind_pure_iff.trans (c.tint_isOk_iff _)
  · exact mixWith_isOk_iff c false values
  · exact mixWith_isOk_iff c true values
  · exact isOk_bind_pure_iff.trans (c.contrast_isOk_iff _)
  · exact isOk_bind_pure_iff.trans (c.contrast_isOk_iff _)
  · next hchannel hrgb hshade htint hblend hblendAlpha hshare hplain =>
    have hother : adjuster.Computes c values = True := by
      unfold Computes
      split <;> simp_all
    rw [hother]
    exact ⟨fun _ => trivial, fun _ => rfl⟩

end Adjuster

/-! ## Writing a color -/

/-- The space in which a format writes a color. -/
def ColorFormat.spaceOf (format : ColorFormat) (c : Color Float) : ColorSpace :=
  match format with
  | .legacy => if c.space = .hsl then .hsl else .rgb
  | .string => c.space
  | .rgb | .rgbLegacy | .hex => .rgb
  | .hsl | .hslLegacy => .hsl
  | .hwb => .hwb

theorem Color.toCss_isOk_iff (c : Color Float) (format : ColorFormat) :
    (c.toCss format).isOk ↔ c.Converts (format.spaceOf c) := by
  have hrgb : ∀ f : Triple Float → String,
      (c.rgb >>= fun t => pure (f t)).isOk ↔ c.Converts .rgb := fun f =>
    isOk_bind_pure_iff.trans c.rgb_isOk_iff
  have hhsl : ∀ f : Triple Float → String,
      (c.hsl >>= fun t => pure (f t)).isOk ↔ c.Converts .hsl := fun f =>
    isOk_bind_pure_iff.trans c.hsl_isOk_iff
  have hhwb : ∀ f : Triple Float → String,
      (c.hwb >>= fun t => pure (f t)).isOk ↔ c.Converts .hwb := fun f =>
    isOk_bind_pure_iff.trans c.hwb_isOk_iff
  cases format with
  | legacy =>
    by_cases hspace : c.space = .hsl
    · have htext : c.toCss .legacy = toCss.hslLegacy c := if_pos hspace
      have hformat : ColorFormat.legacy.spaceOf c = .hsl := if_pos hspace
      rw [htext, hformat]
      exact hhsl _
    · have htext : c.toCss .legacy = toCss.rgbLegacy c := if_neg hspace
      have hformat : ColorFormat.legacy.spaceOf c = .rgb := if_neg hspace
      rw [htext, hformat]
      exact hrgb _
  | string =>
    obtain ⟨space, channels, alpha, hue⟩ := c
    cases space with
    | rgb => exact hrgb _
    | hsl => exact hhsl _
    | hwb => exact hhwb _
  | rgb => exact hrgb _
  | rgbLegacy => exact hrgb _
  | hsl => exact hhsl _
  | hslLegacy => exact hhsl _
  | hwb => exact hhwb _
  | hex => exact hrgb _

end ColorMod
