import ColorMod.Color.Named
import ColorMod.Text.Digit

/-!
# Hex colors

A hex color is `#` and 3, 4, 6 or 8 hexadecimal digits: one or two digits for each of red, green,
blue and, if given, alpha.  A single digit stands for itself twice.  One line break may follow.
-/

namespace ColorMod.Hex

/-- The text without one line break at its end. -/
def dropLineBreak (cs : List Char) : List Char :=
  if cs.getLast? == some '\n' then cs.dropLast else cs

/-- The bytes of a hex color: red, green and blue, and alpha if it is given. -/
def bytes? (text : String) : Option (Triple Nat × Option Nat) :=
  match text.toList with
  | '#' :: cs => do
    match ← (dropLineBreak cs).mapM Text.hexValue? with
    | [r, g, b] => some (⟨17 * r, 17 * g, 17 * b⟩, none)
    | [r, g, b, a] => some (⟨17 * r, 17 * g, 17 * b⟩, some (17 * a))
    | [r, r', g, g', b, b'] => some (⟨16 * r + r', 16 * g + g', 16 * b + b'⟩, none)
    | [r, r', g, g', b, b', a, a'] =>
      some (⟨16 * r + r', 16 * g + g', 16 * b + b'⟩, some (16 * a + a'))
    | _ => none
  | _ => none

/-- The color that a hex text stands for. -/
def color? {α : Type} [Scalar α] (text : String) : Option (Color α) :=
  (bytes? text).map fun (rgb, alpha) =>
    .ofChannels .rgb (rgb.map channelOfByte) (alpha.elim 1 channelOfByte)

end ColorMod.Hex
