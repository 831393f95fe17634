import ColorMod.Color.Conversion

/-!
# Colors

A color is stored in one space and converted on demand.  An rgb color remembers the hue that a gray
has lost, so that a chain of conversions and channel changes keeps it.

Reading a channel (`get`) never changes how the color is stored.  Writing one (`set`) moves the
color to the space that owns the channel: red, green and blue to rgb; hue, saturation and lightness
to hsl; whiteness and blackness to hwb.  Alpha belongs to every space.
-/

namespace ColorMod

open Scalar

structure Color (α : Type) where
  space : ColorSpace
  channels : Triple α
  alpha : α
  /-- The hue of the color, or the hue to keep for it when it is a gray. -/
  hue : α
  deriving Repr, Inhabited

/-- The nine numbers that can be read from a color and written to it. -/
inductive Channel where
  | red
  | green
  | blue
  | hue
  | saturation
  | lightness
  | whiteness
  | blackness
  | alpha
  deriving DecidableEq, Repr, Inhabited

namespace Channel

/-- The space that owns the channel and its place there; alpha belongs to none. -/
def home? : Channel → Option (ColorSpace × Fin 3)
  | red => some (.rgb, 0)
  | green => some (.rgb, 1)
  | blue => some (.rgb, 2)
  | hue => some (.hsl, 0)
  | saturation => some (.hsl, 1)
  | lightness => some (.hsl, 2)
  | whiteness => some (.hwb, 1)
  | blackness => some (.hwb, 2)
  | alpha => none

end Channel

namespace Triple

variable {α : Type}

def get (t : Triple α) : Fin 3 → α
  | 0 => t.first
  | 1 => t.second
  | 2 => t.third

def set (t : Triple α) (x : α) : Fin 3 → Triple α
  | 0 => { t with first := x }
  | 1 => { t with second := x }
  | 2 => { t with third := x }

end Triple

namespace Color

variable {α : Type} [Scalar α]

/-- The color with the given channels.  In hsl and hwb the first channel is the hue; an rgb color
has its own hue unless it is a gray, which keeps `kept`. -/
def ofChannels (space : ColorSpace) (channels : Triple α) (alpha : α) (kept : α := 0) : Color α :=
  { space, channels, alpha
    hue := match space with
      | .rgb => hueOfRgb kept channels
      | .hsl | .hwb => channels.first }

/-- Equal colors are stored alike; the remembered hue does not count. -/
instance : BEq (Color α) :=
  ⟨fun c d => decide (c.space = d.space) && c.channels == d.channels && c.alpha == d.alpha⟩

/-! ## The color in each space -/

def rgb (c : Color α) : Except ArithmeticFault (Triple α) :=
  match c.space with
  | .rgb => .ok c.channels
  | .hsl => rgbOfHsl c.channels
  | .hwb => rgbOfHwb c.channels

def hsl (c : Color α) : Except ArithmeticFault (Triple α) :=
  match c.space with
  | .hsl => .ok c.channels
  | _ => do hslOfRgb c.hue (← c.rgb)

def hwb (c : Color α) : Except ArithmeticFault (Triple α) :=
  match c.space with
  | .hwb => .ok c.channels
  | _ => do return hwbOfRgb c.hue (← c.rgb)

/-- The channels of the color in a given space. -/
def channelsIn (c : Color α) : ColorSpace → Except ArithmeticFault (Triple α)
  | .rgb => c.rgb
  | .hsl => c.hsl
  | .hwb => c.hwb

/-- The same color stored in another space. -/
def inSpace (c : Color α) (space : ColorSpace) : Except ArithmeticFault (Color α) :=
  if space = c.space then .ok c
  else do return ofChannels space (← c.channelsIn space) c.alpha c.hue

/-! ## Channels -/

def get (c : Color α) (channel : Channel) : Except ArithmeticFault α :=
  match channel, c.space with
  | .hue, .rgb => .ok c.hue
  | _, _ =>
    match channel.home? with
    | some (space, place) => do return (← c.channelsIn space).get place
    | none => .ok c.alpha

def set (c : Color α) (channel : Channel) (x : α) : Except ArithmeticFault (Color α) :=
  match channel.home? with
  | some (space, place) => do
    return ofChannels space ((← c.channelsIn space).set x place) c.alpha c.hue
  | none => .ok (ofChannels c.space c.channels x c.hue)

/-- All three rgb channels at once. -/
def setRgb (c : Color α) (channels : Triple α) : Color α :=
  ofChannels .rgb channels c.alpha c.hue

end Color

end ColorMod
