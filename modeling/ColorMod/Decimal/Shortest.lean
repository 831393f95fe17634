import ColorMod.Decimal.Fixed
import ColorMod.Scalar.Binary64

/-!
# The shortest numeral of a double

Of all decimals that read back as the double, `shortest` takes one with the fewest digits, and of
those the nearest.  For each number of digits only the two neighbours of the exact value can do.
`floatText` writes it: from `0.0001` up to below `10 ^ 16` with a point and no exponent.
-/

namespace ColorMod.Decimal

open Float.Model in
/-- A positive finite double as `coefficient * 10 ^ exponent`, exactly. -/
def exactDecimal? (x : Float) : Option (Nat × Int) :=
  match x.toModel.unpack with
  | .finite _ significand exponent _ =>
    if 0 ≤ exponent then some (significand * Nat.pow 2 exponent.toNat, 0)
    else some (significand * Nat.pow 5 (-exponent).toNat, exponent)
  | _ => none

/-- The decimal reads back as `x`. -/
def readsAs (x : Float) (coefficient : Nat) (exponent : Int) : Bool :=
  Scalar.ofDecimal coefficient exponent == x

/-- The decimal of `count` digits that reads back as `x`, where `x` is exactly
`coefficient * 10 ^ exponent`; of two such decimals the nearer one. -/
def withDigits? (x : Float) (coefficient : Nat) (exponent : Int) (count : Nat) :
    Option (Nat × Int) :=
  let dropped := (digits coefficient).length - count
  let unit := Nat.pow 10 dropped
  let low := coefficient / unit
  let rest := coefficient % unit
  let place := exponent + dropped
  let nearFirst :=
    if 2 * rest < unit || (2 * rest == unit && low % 2 == 0) then [low, low + 1] else [low + 1, low]
  (nearFirst.find? fun c => readsAs x c place).map (·, place)

/-- The shortest decimal that reads back as the positive finite double `x`.  Seventeen digits are
always enough. -/
def shortest? (x : Float) : Option (Nat × Int) := do
  let (coefficient, exponent) ← exactDecimal? x
  ((List.range 17).map (· + 1)).findSome? (withDigits? x coefficient exponent)

/-- The digits of `coefficient * 10 ^ exponent` laid out with a point or with an exponent. -/
def layOut (coefficient : Nat) (exponent : Int) : List Char :=
  let all := digits coefficient
  let ds := dropZeros all
  let point := all.length + exponent
  if -4 < point && point ≤ 0 then
    '0' :: '.' :: (List.replicate (-point).toNat '0' ++ ds)
  else if 0 < point && point ≤ 16 then
    let whole := point.toNat
    if ds.length ≤ whole then ds ++ List.replicate (whole - ds.length) '0' ++ ['.', '0']
    else ds.take whole ++ '.' :: ds.drop whole
  else
    let power := point - 1
    ds.take 1 ++ (if ds.length ≤ 1 then [] else '.' :: ds.drop 1) ++
      ['e', if power < 0 then '-' else '+'] ++
      (if power.natAbs < 10 then ['0'] else []) ++ digits power.natAbs

/-- The shortest numeral that reads back as the double. -/
def floatText (x : Float) : String :=
  let sign := if x.toBits ≥ 0x8000000000000000 then "-" else ""
  if x.isNaN then "nan"
  else if x.isInf then sign ++ "inf"
  else if x == 0 then sign ++ "0.0"
  else
    match shortest? (if x < 0 then -x else x) with
    | some (coefficient, exponent) => sign ++ .ofList (layOut coefficient exponent)
    | none => "nan"

end ColorMod.Decimal
