import ColorMod.Scalar

/-!
# Color spaces

A color is three channels of one of three spaces.  Red, green, blue, saturation, lightness,
whiteness and blackness run from 0 to 1, a hue is in degrees.  The rgb space is the hub: `hslOfRgb`
and `hwbOfRgb` lead away from it, `rgbOfHsl` and `rgbOfHwb` back to it.

Conversions clamp what they read.  A gray has no hue of its own, so the conversions from rgb take
the hue to keep for it.  The light of a color is that of its clamped rgb channels.
-/

namespace ColorMod

open Scalar

inductive ColorSpace where
  | rgb
  | hsl
  | hwb
  deriving DecidableEq, Repr, Inhabited

/-- The channels of a color in some space, in the order of the space's name. -/
structure Triple (α : Type) where
  first : α
  second : α
  third : α
  deriving DecidableEq, Repr, Inhabited

namespace Triple

variable {α β γ : Type}

def map (f : α → β) (t : Triple α) : Triple β :=
  ⟨f t.first, f t.second, f t.third⟩

def zipWith (f : α → β → γ) (s : Triple α) (t : Triple β) : Triple γ :=
  ⟨f s.first t.first, f s.second t.second, f s.third t.third⟩

/-- Every channel the same. -/
def replicate (x : α) : Triple α :=
  ⟨x, x, x⟩

def toList (t : Triple α) : List α :=
  [t.first, t.second, t.third]

instance [BEq α] : BEq (Triple α) :=
  ⟨fun s t => s.first == t.first && s.second == t.second && s.third == t.third⟩

variable [Scalar α]

/-- The largest channel, the first of equal ones. -/
def largest (t : Triple α) : α :=
  larger (larger t.first t.second) t.third

/-- The smallest channel, the first of equal ones. -/
def smallest (t : Triple α) : α :=
  smaller (smaller t.first t.second) t.third

end Triple

variable {α : Type} [Scalar α]

/-! ## From rgb -/

/-- The hue of rgb channels in degrees, `kept` for a gray.  Each channel has its third of the wheel,
and the difference of the other two tells where in that third the hue lies. -/
def hueOfRgb (kept : α) (rgb : Triple α) : α :=
  let ⟨r, g, b⟩ := rgb.map clamp
  let high := Triple.largest ⟨r, g, b⟩
  let chroma := high - Triple.smallest ⟨r, g, b⟩
  if chroma == 0 then kept
  else
    let sixths :=
      if high == r then rem ((g - b) / chroma) 6
      else if high == g then (b - r) / chroma + 2
      else (r - g) / chroma + 4
    rem (sixths * 60) 360

/-- A hue that was kept is kept again. -/
theorem hueOfRgb_hueOfRgb (kept : α) (rgb : Triple α) :
    hueOfRgb (hueOfRgb kept rgb) rgb = hueOfRgb kept rgb := by
  unfold hueOfRgb
  dsimp only
  split <;> rfl

def hslOfRgb (kept : α) (rgb : Triple α) : Except ArithmeticFault (Triple α) := do
  let rgb := rgb.map clamp
  let high := rgb.largest
  let low := rgb.smallest
  let chroma := high - low
  let lightness := (high + low) / 2
  let saturation ←
    if chroma == 0 then pure 0 else divide chroma (1 - magnitude (2 * lightness - 1))
  return ⟨hueOfRgb kept rgb, saturation, lightness⟩

def hwbOfRgb (kept : α) (rgb : Triple α) : Triple α :=
  let rgb := rgb.map clamp
  ⟨hueOfRgb kept rgb, rgb.smallest, 1 - rgb.largest⟩

/-! ## To rgb -/

/-- The sixth of the wheel that a hue lies in, for a hue counted in sixths. -/
def sextant (sixths : α) : Except ArithmeticFault (Fin 6) :=
  if sixths == sixths then
    .ok <|
      if sixths < 1 then 0
      else if sixths < 2 then 1
      else if sixths < 3 then 2
      else if sixths < 4 then 3
      else if sixths < 5 then 4
      else 5
  else
    .error .notANumber

/-- The channels of a pure color in one sixth of the wheel: one is full, one is empty, and the third
lies between. -/
def sextantChannels (full between : α) : Fin 6 → Triple α
  | 0 => ⟨full, between, 0⟩
  | 1 => ⟨between, full, 0⟩
  | 2 => ⟨0, full, between⟩
  | 3 => ⟨0, between, full⟩
  | 4 => ⟨between, 0, full⟩
  | 5 => ⟨full, 0, between⟩

def rgbOfHsl (hsl : Triple α) : Except ArithmeticFault (Triple α) := do
  let saturation := clamp hsl.second
  let lightness := clamp hsl.third
  let sixths := rem hsl.first 360 / 60
  let chroma := (1 - magnitude (2 * lightness - 1)) * saturation
  let between := chroma * (1 - magnitude (rem sixths 2 - 1))
  let base := lightness - chroma / 2
  return (sextantChannels chroma between (← sextant sixths)).map (· + base)

/-- Whiteness and blackness that fill the color up, or more, make a gray. -/
def rgbOfHwb (hwb : Triple α) : Except ArithmeticFault (Triple α) := do
  let whiteness := clamp hwb.second
  let blackness := clamp hwb.third
  if 1 ≤ whiteness + blackness then
    return .replicate (whiteness / (whiteness + blackness))
  else
    let pure ← rgbOfHsl ⟨hwb.first, 1, 0.5⟩
    return pure.map (· * (1 - whiteness - blackness) + whiteness)

/-! ## Light -/

/-- The light of a color, from 0 for black to 1 for white. -/
def relativeLuminance [LightCurve α] (rgb : Triple α) : α :=
  let light := rgb.map fun v => LightCurve.light (clamp v)
  0.2126 * light.first + 0.7152 * light.second + 0.0722 * light.third

/-- The contrast of two lights, at least 1, in either order. -/
def contrastRatio (light₁ light₂ : α) : Except ArithmeticFault α :=
  divide (larger light₁ light₂ + 0.05) (smaller light₁ light₂ + 0.05)

end ColorMod
