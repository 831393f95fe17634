import ColorMod.Color.Mixing

/-!
# Contrast

`contrast` moves a color away from itself in light.  Its goal is white for a dark color and black
for a light one.  At share 0 it stops at the color nearest to the start that reads well on it (a
ratio of 4.5, found by halving an interval), at share 1 it arrives at the goal.
-/

namespace ColorMod.Color

variable {α : Type} [Scalar α] [LightCurve α]

def luminance (c : Color α) : Except ArithmeticFault α := do
  return relativeLuminance (← c.rgb)

def contrastWith (c other : Color α) : Except ArithmeticFault α := do
  contrastRatio (← c.luminance) (← other.luminance)

/-- The least contrast at which text can be read. -/
def readableRatio : α := 4.5

/-- How often the search for the least readable contrast halves its interval. -/
def searchSteps : Nat := 32

/-- The upper end of the interval from `low` to `high` after `steps` halvings: the half is kept in
which the way from `start` to `goal` becomes readable on `c`. -/
def leastReadable (c start goal : Color α) (steps : Nat) (low high : α) :
    Except ArithmeticFault α :=
  match steps with
  | 0 => .ok high
  | steps + 1 => do
    let middle := (low + high) / 2
    let ratio ← c.contrastWith (← start.blend goal middle .hwb)
    if readableRatio ≤ ratio then
      leastReadable c start goal steps low middle
    else
      leastReadable c start goal steps middle high

/-- The point nearest to `c` on the hwb line toward `goal` that can be read on `c`. -/
def nearestReadable (c goal : Color α) : Except ArithmeticFault (Color α) := do
  let start ← c.inSpace .hwb
  start.blend goal (← leastReadable c start goal searchSteps 0 1) .hwb

/-- White for a dark color, black for a light one. -/
def contrastGoal (c : Color α) : Except ArithmeticFault (Color α) := do
  let hue := (← c.hwb).first
  let channels := if (← c.luminance) < 0.5 then ⟨hue, 1, 0⟩ else ⟨hue, 0, 1⟩
  return ofChannels .hwb channels c.alpha

def contrast (c : Color α) (share : α) : Except ArithmeticFault (Color α) := do
  let goal ← c.contrastGoal
  let start ← if readableRatio < (← c.contrastWith goal) then c.nearestReadable goal else pure goal
  start.blend goal share .hwb

end ColorMod.Color
