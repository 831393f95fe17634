/-!
# Code points

A code point is a character, or half of a surrogate pair that stands for none.  Text from outside can
hold such halves, and then it is a list of code points (`CodeText`) and no string.

* `CodeText.ofString`, `CodeText.toString?`: strings are the texts without halves.
* `CodeText.atMost`: the order of texts by the numbers of their code points.
-/

namespace ColorMod

/-- A character, or the surrogate with a number past the first one. -/
inductive CodePoint where
  | character (c : Char)
  | surrogate (n : Fin 0x800)
  deriving DecidableEq, Repr, Inhabited

namespace CodePoint

/-- The number of a code point. -/
def toNat : CodePoint → Nat
  | character c => c.toNat
  | surrogate n => 0xD800 + n.val

/-- The code point with a number. -/
def ofNat (n : Nat) : CodePoint :=
  if h : 0xD800 ≤ n ∧ n < 0xE000 then surrogate ⟨n - 0xD800, by omega⟩ else character (Char.ofNat n)

def character? : CodePoint → Option Char
  | character c => some c
  | surrogate _ => none

end CodePoint

/-- A text that may hold surrogates. -/
abbrev CodeText := List CodePoint

namespace CodeText

def ofString (s : String) : CodeText :=
  s.toList.map .character

instance instCoeStringCodeText : Coe String CodeText := ⟨ofString⟩

/-- The string of a text without surrogates. -/
def toString? (t : CodeText) : Option String :=
  (t.mapM CodePoint.character?).map .ofList

/-- Texts are ordered by the numbers of their code points. -/
def atMost : CodeText → CodeText → Bool
  | [], _ => true
  | _ :: _, [] => false
  | a :: s, b :: t => a.toNat < b.toNat || (a.toNat == b.toNat && atMost s t)

end CodeText

end ColorMod
