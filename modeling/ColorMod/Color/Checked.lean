import ColorMod.Color.Basic
import ColorMod.Text.Quoted

/-!
# Colors from unchecked parts

A space given by its name and channels given as a list make a color when there is such a space and
the channels are three.
-/

namespace ColorMod

namespace ColorSpace

def name : ColorSpace → String
  | rgb => "rgb"
  | hsl => "hsl"
  | hwb => "hwb"

/-- The space with the given name, in lower case. -/
def ofName? : String → Option ColorSpace
  | "rgb" => some rgb
  | "hsl" => some hsl
  | "hwb" => some hwb
  | _ => none

end ColorSpace

/-- Why parts make no color. -/
inductive ColorError where
  | unknownSpace (name : String)
  | channelCount (count : Nat)
  deriving DecidableEq, Repr

namespace ColorError

def message : ColorError → String
  | unknownSpace name => "Unknown colorspace " ++ Text.quoted name
  | channelCount count => "Expected 3 channels, got " ++ toString count

end ColorError

/-- The space with the given name, or the complaint about the name. -/
def ColorSpace.ofName (name : String) : Except ColorError ColorSpace :=
  match ofName? name with
  | some space => .ok space
  | none => .error (.unknownSpace name)

/-- The color with the given parts.  A wrong space is found before a wrong number of channels. -/
def Color.ofParts {α : Type} [Scalar α] (space : String) (channels : List α) (alpha : α := 1)
    (kept : α := 0) : Except ColorError (Color α) := do
  let space ← ColorSpace.ofName space
  match channels with
  | [a, b, c] => return ofChannels space ⟨a, b, c⟩ alpha kept
  | _ => .error (.channelCount channels.length)

end ColorMod
