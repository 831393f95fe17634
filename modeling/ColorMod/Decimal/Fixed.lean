/-!
# Numbers with a fixed number of decimal places

* `roundEven`: the nearest integer, a half goes to the even neighbour.
* `roundPlaces`: the nearest multiple of a power of ten.
* `fixedText`: its digits, without trailing zeros; a zero has no sign.
-/

namespace ColorMod.Decimal

/-- The integer nearest to `q`; of two equally near ones the even one. -/
def roundEven (q : Rat) : Int :=
  let low := q.floor
  let rest := q - low
  if rest < 1 / 2 then low
  else if 1 / 2 < rest then low + 1
  else if low % 2 = 0 then low
  else low + 1

/-- `q` in units of `10 ^ -places`. -/
def scaled (places : Nat) (q : Rat) : Int :=
  roundEven (q * Nat.pow 10 places)

/-- The multiple of `10 ^ -places` nearest to `q`. -/
def roundPlaces (places : Nat) (q : Rat) : Rat :=
  scaled places q / Nat.pow 10 places

/-- The decimal digits of `n`, the highest first. -/
def digits (n : Nat) : List Char :=
  Nat.toDigits 10 n

/-- The `count` lowest decimal digits of `n`. -/
def lowDigits (count n : Nat) : List Char :=
  let ds := digits n
  List.replicate (count - ds.length) '0' ++ ds.drop (ds.length - count)

/-- The digits without the zeros at the end. -/
def dropZeros (ds : List Char) : List Char :=
  (ds.reverse.dropWhile (· == '0')).reverse

/-- `units` units of `10 ^ -places` in decimal notation. -/
def unitsText (places units : Nat) : List Char :=
  let part := dropZeros (lowDigits places (units % Nat.pow 10 places))
  digits (units / Nat.pow 10 places) ++ if part.isEmpty then [] else '.' :: part

/-- `q` rounded to `places` decimal places. -/
def fixedText (places : Nat) (q : Rat) : String :=
  let units := scaled places q
  .ofList ((if units < 0 then ['-'] else []) ++ unitsText places units.natAbs)

end ColorMod.Decimal
