import ColorMod.Scalar

/-!
# Double precision as channel numbers

A finite double stands for one rational number (`exactValue?`), and every rational number has a
nearest double (`nearest`, a tie goes to the even significand).  What the hardware does not offer is
defined through these two: the remainder of a floored division is the exact remainder, rounded once.
`singleOf` is the double of single precision nearest to a double.
-/

namespace ColorMod

open Float.Model in
/-- The rational number that a finite double stands for. -/
def exactValue? (x : Float) : Option Rat :=
  match x.toModel.unpack with
  | .finite sign significand exponent _ =>
    some (mkRat (sign.apply (significand * Nat.pow 2 exponent.toNat)) (Nat.pow 2 (-exponent).toNat))
  | .zero _ => some 0
  | .infinity _ => none
  | .notANumber => none

open Float.Model in
/-- The double nearest to a rational number. -/
def nearest (q : Rat) : Float :=
  .ofModel <| pack <|
    if h : 0 < q.num.natAbs then
      UnpackedFloat.div Format.binary64
        (.finite (if q.num < 0 then .negative else .positive) q.num.natAbs 0 h)
        (.finite .positive q.den 0 q.den_pos)
    else
      .zero .positive

/-- The remainder of a floored division: the exact one, rounded to the nearest double. -/
def floatRem (x y : Float) : Float :=
  match exactValue? x, exactValue? y with
  | some p, some q => nearest (p - q * (p / q).floor)
  | _, _ => 0 / 0

open Float.Model in
/-- The double rounded to the 24 bits and the range of single precision. -/
def singleOf (x : Float) : Float :=
  match x.toModel.unpack with
  | .finite sign significand exponent _ =>
    match (Float32.Model.pack (.round Format.binary32 sign significand exponent)).unpack with
    | .finite sign significand exponent _ =>
      .ofModel (pack (.round Format.binary64 sign significand exponent))
    | other => .ofModel (pack other)
  | _ => x

instance : Scalar Float where
  toOfNat _ := inferInstance
  rem := floatRem
  value? := exactValue?
  ofDecimal coefficient exponent := .ofModel (.ofScientific coefficient exponent)
  toSingle := singleOf

/-- `x` to the power 2.4.  One is a fixed point of every power. -/
def power24 (x : Float) : Float := if x == 1 then 1 else x.pow 2.4

/-- The curve of the sRGB standard: linear near black, a power above. -/
def standardLight (power : Float → Float) (v : Float) : Float :=
  if v ≤ 0.03928 then v / 12.92 else power ((v + 0.055) / 1.055)

instance : LightCurve Float where
  light := standardLight power24

end ColorMod
