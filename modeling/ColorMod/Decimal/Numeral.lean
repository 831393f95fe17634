import ColorMod.Scalar
import ColorMod.Text.Words
import ColorMod.Text.Digit

/-!
# Decimal numerals

A numeral is a sign, digits with at most one point among them, and an exponent:

    numeral  ::= [+ | -] mantissa [(e | E) [+ | -] digits]
    mantissa ::= digits [. [digits]] | . digits
    digits   ::= digit ([_] digit)*

Digits of every script count, and blanks may surround the whole.
-/

namespace ColorMod

/-- The number `coefficient * 10 ^ exponent`, or its negative.  Zero keeps its sign. -/
structure Numeral where
  negative : Bool
  coefficient : Nat
  exponent : Int
  deriving DecidableEq, Repr, Inhabited

namespace Numeral

open Text

/-- The blanks that may surround a numeral. -/
def isPadding (c : Char) : Bool :=
  isBlank c && !(0x1C ≤ c.toNat && c.toNat ≤ 0x1F)

/-- Drops the underscores between two digits; any other underscore is refused.  `afterDigit` tells
whether a digit stands just before. -/
def dropSeparators (afterDigit : Bool) : List Char → Option (List Char)
  | [] => some []
  | '_' :: cs =>
    if afterDigit && (cs.head?.bind digitValue?).isSome then dropSeparators false cs else none
  | c :: cs => (dropSeparators (digitValue? c).isSome cs).map (c :: ·)

/-- The digits at the front, and what follows them. -/
def takeDigits : List Char → List Nat × List Char
  | [] => ([], [])
  | c :: cs =>
    match digitValue? c with
    | some d => let (ds, rest) := takeDigits cs; (d :: ds, rest)
    | none => ([], c :: cs)

/-- The number that digits spell, the highest first. -/
def ofDigits (ds : List Nat) : Nat :=
  ds.foldl (fun n d => 10 * n + d) 0

/-- The sign at the front, if any, and what follows it. -/
def takeSign : List Char → Bool × List Char
  | '-' :: cs => (true, cs)
  | '+' :: cs => (false, cs)
  | cs => (false, cs)

/-- The exponent, which must take up the whole rest. -/
def readExponent : List Char → Option Int
  | [] => some 0
  | c :: cs =>
    if c == 'e' || c == 'E' then
      match takeSign cs with
      | (negative, rest) =>
        match takeDigits rest with
        | ([], _) => none
        | (ds, []) => some (if negative then -(ofDigits ds) else ofDigits ds)
        | _ => none
    else
      none

/-- The numeral without its sign. -/
def readUnsigned (negative : Bool) (cs : List Char) : Option Numeral :=
  let (whole, rest) := takeDigits cs
  let (part, rest) :=
    match rest with
    | '.' :: rest => takeDigits rest
    | rest => ([], rest)
  if whole.isEmpty && part.isEmpty then none
  else
    (readExponent rest).map fun exponent =>
      { negative, coefficient := ofDigits (whole ++ part), exponent := exponent - part.length }

/-- The numeral that a text spells. -/
def parse? (s : String) : Option Numeral := do
  let cs ← dropSeparators false (trimChars isPadding s.toList)
  let (negative, cs) := takeSign cs
  readUnsigned negative cs

end Numeral

namespace Scalar

variable {α : Type} [Scalar α]

/-- The number nearest to what a numeral stands for. -/
def ofNumeral (n : Numeral) : α :=
  let size := ofDecimal n.coefficient n.exponent
  if n.negative then -size else size

/-- The finite number that a text spells. -/
def ofText? (s : String) : Option α := do
  let x := ofNumeral (← Numeral.parse? s)
  if (value? x).isSome then some x else none

end Scalar

end ColorMod
