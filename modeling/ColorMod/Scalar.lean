/-!
# Channel numbers

Every color computation is written once, over any type of numbers with the operations of
`Scalar`.  Two types matter: `Float`, in which colors are computed, and `Rat`, in which the laws of
the color spaces hold exactly.

* `clamp`: the nearest number of the unit interval; a value that is not a number counts as one.
* `divide`: division that reports a zero divisor.
* `LightCurve`: how much light a channel gives off, the one function that is not rational.
-/

namespace ColorMod

/-- Numbers that color channels can hold. -/
class Scalar (α : Type) where
  [toAdd : Add α]
  [toSub : Sub α]
  [toMul : Mul α]
  [toDiv : Div α]
  [toNeg : Neg α]
  [toLT : LT α]
  [toLE : LE α]
  [toBEq : BEq α]
  [toDecidableLT : DecidableLT α]
  [toDecidableLE : DecidableLE α]
  toOfNat : (n : Nat) → OfNat α n
  [toOfScientific : OfScientific α]
  /-- The remainder of a division rounded down: it has the sign of the divisor. -/
  rem : α → α → α
  /-- The exact value, when the number is finite. -/
  value? : α → Option Rat
  /-- The number nearest to `coefficient * 10 ^ exponent`. -/
  ofDecimal : (coefficient : Nat) → (exponent : Int) → α
  /-- The number in single precision; numbers without a precision stay as they are. -/
  toSingle : α → α

attribute [reducible] Scalar.toAdd Scalar.toSub Scalar.toMul Scalar.toDiv Scalar.toNeg Scalar.toLT
  Scalar.toLE Scalar.toBEq Scalar.toDecidableLT Scalar.toDecidableLE Scalar.toOfNat
  Scalar.toOfScientific

section Operations

variable {α : Type} [Scalar α]

instance (priority := 50) instAddOfScalar : Add α := Scalar.toAdd

instance (priority := 50) instSubOfScalar : Sub α := Scalar.toSub

instance (priority := 50) instMulOfScalar : Mul α := Scalar.toMul

instance (priority := 50) instDivOfScalar : Div α := Scalar.toDiv

instance (priority := 50) instNegOfScalar : Neg α := Scalar.toNeg

instance (priority := 50) instLTOfScalar : LT α := Scalar.toLT

instance (priority := 50) instLEOfScalar : LE α := Scalar.toLE

instance (priority := 50) instBEqOfScalar : BEq α := Scalar.toBEq

instance (priority := 50) instOfScientificOfScalar : OfScientific α := Scalar.toOfScientific

instance (priority := 50) instDecidableLTOfScalar : DecidableLT α := Scalar.toDecidableLT

instance (priority := 50) instDecidableLEOfScalar : DecidableLE α := Scalar.toDecidableLE

instance (priority := 50) instOfNatOfScalar (n : Nat) : OfNat α n := Scalar.toOfNat n

end Operations

/-- The light that a channel of value 0 to 1 gives off. -/
class LightCurve (α : Type) where
  light : α → α

/-- What can go wrong in channel arithmetic. -/
inductive ArithmeticFault where
  | divisionByZero
  | notANumber
  deriving DecidableEq, Repr, Inhabited

def ArithmeticFault.message : ArithmeticFault → String
  | divisionByZero => "float division by zero"
  | notANumber => "cannot convert float NaN to integer"

namespace Scalar

variable {α : Type} [Scalar α]

/-- The second number if it is strictly larger, else the first. -/
def larger (x y : α) : α := if x < y then y else x

/-- The second number if it is strictly smaller, else the first. -/
def smaller (x y : α) : α := if y < x then y else x

/-- The number of `low` to `high` nearest to `x`. -/
def clampTo (low high x : α) : α := larger low (smaller high x)

/-- The number of the unit interval nearest to `x`. -/
def clamp (x : α) : α := clampTo 0 1 x

/-- The absolute value. -/
def magnitude (x : α) : α := if x < 0 then -x else x

/-- Division, unless the divisor is zero. -/
def divide (x y : α) : Except ArithmeticFault α :=
  if y == 0 then .error .divisionByZero else .ok (x / y)

end Scalar

/-- Exact arithmetic. -/
instance : Scalar Rat where
  toOfNat _ := inferInstance
  rem x y := x - y * (x / y).floor
  value? := some
  ofDecimal coefficient exponent := coefficient * (10 : Rat) ^ exponent
  toSingle := id

end ColorMod
