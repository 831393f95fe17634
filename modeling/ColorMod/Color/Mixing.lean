import ColorMod.Color.Basic

/-!
# Mixing colors

`mix` goes the given share of the way from one color to another, channel by channel in a given
space.  `blend` keeps the first color's alpha, `blendAlpha` mixes it too.  `shade` and `tint` go
toward black and white.  Each result remembers the first color's hue.
-/

namespace ColorMod.Color

variable {α : Type} [Scalar α]

/-- The point at `share` of the way from `x` to `y`. -/
def between (share x y : α) : α :=
  x * (1 - share) + y * share

def mix (c other : Color α) (share : α) (space : ColorSpace) (mixAlpha : Bool) :
    Except ArithmeticFault (Color α) := do
  let start ← c.inSpace space
  let goal ← other.inSpace space
  return ofChannels space (start.channels.zipWith (between share) goal.channels)
    (if mixAlpha then between share c.alpha other.alpha else c.alpha) c.hue

def blend (c other : Color α) (share : α) (space : ColorSpace := .rgb) :
    Except ArithmeticFault (Color α) :=
  c.mix other share space false

def blendAlpha (c other : Color α) (share : α) (space : ColorSpace := .rgb) :
    Except ArithmeticFault (Color α) :=
  c.mix other share space true

/-- Darker: toward black. -/
def shade (c : Color α) (share : α) : Except ArithmeticFault (Color α) := do
  (← c.inSpace .hwb).blend (ofChannels .hwb ⟨0, 0, 1⟩ 1) share

/-- Lighter: toward white. -/
def tint (c : Color α) (share : α) : Except ArithmeticFault (Color α) := do
  (← c.inSpace .hwb).blend (ofChannels .hwb ⟨0, 1, 0⟩ 1) share

end ColorMod.Color
