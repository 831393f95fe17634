import ColorMod.Color.Basic
import ColorMod.Decimal.Fixed
import ColorMod.Text.Case
import ColorMod.Text.Quoted

/-!
# Colors as CSS text

`Color.toCss` writes a color in one of eight formats.  The comma forms have integer rgb channels and
name the function with alpha `rgba` or `hsla`; the space forms have percentages and set alpha off by
a slash; the hex form has two digits a channel.  Channels are clamped here and nowhere before, and a
color that covers fully shows no alpha.  Numbers keep ten decimal places.
-/

namespace ColorMod

open Scalar

/-- A way to write a color. -/
inductive ColorFormat where
  /-- With commas, an hsl color in hsl and any other in rgb. -/
  | legacy
  /-- With spaces, in the color's own space. -/
  | string
  | rgb
  | rgbLegacy
  | hsl
  | hslLegacy
  | hwb
  | hex
  deriving DecidableEq, Repr, Inhabited

namespace ColorFormat

/-- All formats, in the order of their names. -/
def all : List ColorFormat :=
  [hex, hsl, hslLegacy, hwb, legacy, rgb, rgbLegacy, string]

def name : ColorFormat → String
  | hex => "hex"
  | hsl => "hsl"
  | hslLegacy => "hsl-legacy"
  | hwb => "hwb"
  | legacy => "legacy"
  | rgb => "rgb"
  | rgbLegacy => "rgb-legacy"
  | string => "string"

def names : List String :=
  all.map name

/-- The format with the given name, in any letter case. -/
def ofName? (name : String) : Option ColorFormat :=
  all.find? fun format => format.name == Text.lower name

end ColorFormat

namespace Written

variable {α : Type} [Scalar α]

/-- A number with at most ten decimal places. -/
def number (x : α) : String :=
  match value? x with
  | some q => Decimal.fixedText 10 q
  | none => "nan"

def percentage (x : α) : String :=
  number (clamp x * 100) ++ "%"

/-- The byte nearest to a channel; a half goes up. -/
def byte (x : α) : Nat :=
  match value? (clamp x * 255 + 0.5) with
  | some q => q.floor.toNat
  | none => 0

def hue (x : α) : String :=
  number (rem x 360)

/-- A function call with commas; `alpha` is shown when it is less than one. -/
def commaForm (name : String) (channels : List String) (alpha : α) : String :=
  let alpha := clamp alpha
  if 1 ≤ alpha then
    name ++ "(" ++ ", ".intercalate channels ++ ")"
  else
    name ++ "a(" ++ ", ".intercalate (channels ++ [number alpha]) ++ ")"

/-- A function call with spaces; `alpha` is shown when it is less than one. -/
def spaceForm (name : String) (channels : List String) (alpha : α) : String :=
  let alpha := clamp alpha
  name ++ "(" ++ " ".intercalate channels ++
    (if 1 ≤ alpha then "" else " / " ++ percentage alpha) ++ ")"

def hexByte (x : α) : String :=
  .ofList (Text.hexDigits 2 (byte x))

end Written

namespace Color

open Written

variable {α : Type} [Scalar α]

def toCss (c : Color α) : ColorFormat → Except ArithmeticFault String
  | .legacy => if c.space = .hsl then hslLegacy else rgbLegacy
  | .string =>
    match c.space with
    | .rgb => rgbSpaced
    | .hsl => hslSpaced
    | .hwb => hwbSpaced
  | .rgb => rgbSpaced
  | .rgbLegacy => rgbLegacy
  | .hsl => hslSpaced
  | .hslLegacy => hslLegacy
  | .hwb => hwbSpaced
  | .hex => do
    let bytes := (← c.rgb).toList.map hexByte
    return "#" ++ "".intercalate bytes ++
      (if 1 ≤ clamp c.alpha then "" else hexByte c.alpha)
where
  rgbLegacy : Except ArithmeticFault String := do
    return commaForm "rgb" ((← c.rgb).toList.map fun x => toString (byte x)) c.alpha
  hslLegacy : Except ArithmeticFault String := do
    let ⟨h, s, l⟩ ← c.hsl
    return commaForm "hsl" [Written.hue h, percentage s, percentage l] c.alpha
  rgbSpaced : Except ArithmeticFault String := do
    return spaceForm "rgb" ((← c.rgb).toList.map percentage) c.alpha
  hslSpaced : Except ArithmeticFault String := do
    let ⟨h, s, l⟩ ← c.hsl
    return spaceForm "hsl" [Written.hue h, percentage s, percentage l] c.alpha
  hwbSpaced : Except ArithmeticFault String := do
    let ⟨h, w, b⟩ ← c.hwb
    return spaceForm "hwb" [Written.hue h, percentage w, percentage b] c.alpha

end Color

end ColorMod
