import ColorMod.Decimal.Numeral
import ColorMod.Json.Basic

/-!
# Reading JSON

`Json.read` reads a whole text, and what it gives is the value as it is written.  Beyond the grammar
of JSON it knows the numbers `NaN`, `Infinity` and `-Infinity`.  A number with a point or an exponent
is a double, any other is an integer.  Escapes of a surrogate pair are one character, and an escape of
half a pair is that half.

Reading has limits (`Limits`): on the digits of an integer, and on how many arrays and objects stand
in one another.  The first thing in the text that is beyond them ends it, before anything that comes
later is looked at.
-/

namespace ColorMod.Json

/-! ## Limits -/

/-- What reading asks for: an integer of so many digits, an array or an object at such a level. -/
inductive Demand where
  | integer (digits : Nat)
  | array (level : Nat)
  | object (level : Nat)
  deriving DecidableEq, Repr

/-- How much may be asked for; where there is no limit, anything.  Levels are room on a stack, and
there is less of it for one who has used some already. -/
structure Limits where
  digits : Option Nat := some 4300
  levels : Option Nat := some 1000
  deriving DecidableEq, Repr

namespace Limits

def unlimited : Limits := { digits := none, levels := none }

def allows (limits : Limits) : Demand → Bool
  | .integer digits => limits.digits.all (digits ≤ ·)
  | .array level | .object level => limits.levels.all (level ≤ ·)

end Limits

/-- The complaint about what is beyond the limits. -/
def Demand.message (limits : Limits) : Demand → String
  | integer digits =>
    "Exceeds the limit (" ++ toString (limits.digits.getD 0) ++ " digits) for integer string " ++
      "conversion: value has " ++ toString digits ++ " digits; use sys.set_int_max_str_digits() " ++
      "to increase the limit"
  | array _ => "maximum recursion depth exceeded while decoding a JSON array from a unicode string"
  | object _ => "maximum recursion depth exceeded while decoding a JSON object from a unicode string"

/-- Why a text is not read. -/
inductive ReadError where
  | malformed
  | beyond (demand : Demand)
  deriving DecidableEq, Repr

/-- Goes on where the limits allow it. -/
def Limits.meet (limits : Limits) (demand : Demand) : Except ReadError Unit :=
  if limits.allows demand then .ok () else .error (.beyond demand)

def orMalformed {β : Type} : Option β → Except ReadError β
  | some found => .ok found
  | none => .error .malformed

/-! ## Words -/

def isWhitespace (c : Char) : Bool :=
  c == ' ' || c == '\t' || c == '\n' || c == '\r'

def skipWhitespace (cs : List Char) : List Char :=
  cs.dropWhile isWhitespace

/-- What follows a word at the front. -/
def dropWord? (word : String) (cs : List Char) : Option (List Char) :=
  if word.toList.isPrefixOf cs then some (cs.drop word.length) else none

/-! ## Numbers -/

/-- The ASCII digits at the front, and what follows them. -/
def spanDigits (cs : List Char) : List Nat × List Char :=
  let (ds, rest) := cs.span Char.isDigit
  (ds.map fun c => c.toNat - '0'.toNat, rest)

/-- The digits after a point, if a point and a digit are at the front. -/
def readFraction (cs : List Char) : List Nat × List Char :=
  match cs with
  | '.' :: tail =>
    match spanDigits tail with
    | ([], _) => ([], cs)
    | found => found
  | _ => ([], cs)

/-- The exponent at the front, if there is a whole one. -/
def readPower (cs : List Char) : Option Int × List Char :=
  match cs with
  | c :: tail =>
    if c == 'e' || c == 'E' then
      let (negative, tail) := Numeral.takeSign tail
      match spanDigits tail with
      | ([], _) => (none, cs)
      | (ds, rest) =>
        let power : Int := Numeral.ofDigits ds
        (some (if negative then -power else power), rest)
    else
      (none, cs)
  | [] => (none, cs)

/-- Whether a minus sign is at the front, and what follows it. -/
def takeMinus : List Char → Bool × List Char
  | '-' :: cs => (true, cs)
  | cs => (false, cs)

/-- The digits before the point, if there are any.  After a zero at the front there are no more. -/
def readWhole? (cs : List Char) : Option (List Nat × List Char) :=
  match spanDigits cs with
  | ([], _) => none
  | (d :: ds, rest) => some (if d = 0 then ([0], cs.drop 1) else (d :: ds, rest))

/-- The number with such digits before the point, from what follows these. -/
def readAfter (limits : Limits) (negative : Bool) (whole : List Nat) (rest : List Char) :
    Except ReadError (Json × List Char) := do
  let (part, rest) := readFraction rest
  let (power, rest) := readPower rest
  if part.isEmpty && power.isNone then
    limits.meet (.integer whole.length)
    let n : Int := Numeral.ofDigits whole
    return (.int (if negative then -n else n), rest)
  else
    let numeral : Numeral :=
      { negative
        coefficient := Numeral.ofDigits (whole ++ part)
        exponent := power.getD 0 - part.length }
    return (.float (Scalar.ofNumeral numeral), rest)

/-- The number at the front. -/
def readNumber (limits : Limits) (cs : List Char) : Except ReadError (Json × List Char) := do
  let (negative, cs) := takeMinus cs
  let (whole, rest) ← orMalformed (readWhole? cs)
  readAfter limits negative whole rest

/-- A literal at the front. -/
def readLiteral? (cs : List Char) : Option (Json × List Char) :=
  let literals : List (String × Json) :=
    [("null", .null), ("true", .bool true), ("false", .bool false), ("NaN", .float (0 / 0)),
     ("Infinity", .float (1 / 0)), ("-Infinity", .float (-1 / 0))]
  literals.findSome? fun (word, value) => (dropWord? word cs).map (value, ·)

/-- A literal or a number at the front. -/
def readAtom (limits : Limits) (cs : List Char) : Except ReadError (Json × List Char) :=
  match readLiteral? cs with
  | some found => .ok found
  | none => readNumber limits cs

/-! ## Strings -/

/-- The code of four hexadecimal digits. -/
def code? (digits : List Char) : Option Nat := do
  let values ← digits.mapM Text.hexValue?
  return values.foldl (fun n d => 16 * n + d) 0

/-- The character that a single letter after a backslash stands for. -/
def escaped? : Char → Option Char
  | '"' => some '"'
  | '\\' => some '\\'
  | '/' => some '/'
  | 'b' => some '\x08'
  | 'f' => some '\x0c'
  | 'n' => some '\n'
  | 'r' => some '\r'
  | 't' => some '\t'
  | _ => none

def isHighHalf (code : Nat) : Bool :=
  0xD800 ≤ code && code < 0xDC00

def isLowHalf (code : Nat) : Bool :=
  0xDC00 ≤ code && code < 0xE000

/-- The character of a surrogate pair. -/
def ofPair (high low : Nat) : Char :=
  Char.ofNat (0x10000 + (high - 0xD800) * 0x400 + (low - 0xDC00))

/-- The code points of a string up to its closing quote, and what follows it. -/
def readCharacters : List Char → Option (CodeText × List Char)
  | [] => none
  | '"' :: cs => some ([], cs)
  | '\\' :: 'u' :: a :: b :: c :: d :: '\\' :: 'u' :: e :: f :: g :: h :: cs => do
    let high ← code? [a, b, c, d]
    match code? [e, f, g, h] with
    | some low =>
      if isHighHalf high && isLowHalf low then
        let (rest, cs) ← readCharacters cs
        return (.character (ofPair high low) :: rest, cs)
      else
        let (rest, cs) ← readCharacters ('\\' :: 'u' :: e :: f :: g :: h :: cs)
        return (.ofNat high :: rest, cs)
    | none => none
  | '\\' :: 'u' :: a :: b :: c :: d :: cs => do
    let code ← code? [a, b, c, d]
    let (rest, cs) ← readCharacters cs
    return (.ofNat code :: rest, cs)
  | '\\' :: c :: cs => do
    let c ← escaped? c
    let (rest, cs) ← readCharacters cs
    return (.character c :: rest, cs)
  | c :: cs => do
    if c.toNat < 0x20 || c == '\\' then none
    else
      let (rest, cs) ← readCharacters cs
      return (.character c :: rest, cs)

/-- A string at the front. -/
def readString : List Char → Option (CodeText × List Char)
  | '"' :: cs => readCharacters cs
  | _ => none

/-! ## Values -/

mutual

/-- The value at the front, nested at most as deep as the fuel lasts, with so many arrays and objects
around it. -/
def readValue (limits : Limits) :
    Nat → Nat → List Char → Except ReadError (Json × List Char)
  | 0, _, _ => .error .malformed
  | fuel + 1, level, cs =>
    match cs with
    | '"' :: _ => do
      let (s, rest) ← orMalformed (readString cs)
      return (.string s, rest)
    | '[' :: rest => do
      limits.meet (.array (level + 1))
      match skipWhitespace rest with
      | ']' :: rest => return (.array [], rest)
      | rest =>
        let (items, rest) ← readItems limits fuel (level + 1) rest
        return (.array items, rest)
    | '\x7b' :: rest => do
      limits.meet (.object (level + 1))
      match skipWhitespace rest with
      | '\x7d' :: rest => return (.object [], rest)
      | rest =>
        let (members, rest) ← readMembers limits fuel (level + 1) rest
        return (.object members, rest)
    | _ => readAtom limits cs

/-- The items of an array up to its closing bracket. -/
def readItems (limits : Limits) :
    Nat → Nat → List Char → Except ReadError (List Json × List Char)
  | 0, _, _ => .error .malformed
  | fuel + 1, level, cs => do
    let (item, rest) ← readValue limits fuel level cs
    match skipWhitespace rest with
    | ',' :: rest =>
      let (items, rest) ← readItems limits fuel level (skipWhitespace rest)
      return (item :: items, rest)
    | ']' :: rest => return ([item], rest)
    | _ => .error .malformed

/-- The members of an object up to its closing brace. -/
def readMembers (limits : Limits) :
    Nat → Nat → List Char → Except ReadError (Members × List Char)
  | 0, _, _ => .error .malformed
  | fuel + 1, level, cs => do
    let (key, rest) ← orMalformed (readString cs)
    match skipWhitespace rest with
    | ':' :: rest =>
      let (value, rest) ← readValue limits fuel level (skipWhitespace rest)
      match skipWhitespace rest with
      | ',' :: rest =>
        let (members, rest) ← readMembers limits fuel level (skipWhitespace rest)
        return ((key, value) :: members, rest)
      | '\x7d' :: rest => return ([(key, value)], rest)
      | _ => .error .malformed
    | _ => .error .malformed

end

/-- The value that a whole text spells, as it is written.  A value is never nested deeper than its
text is long. -/
def read (limits : Limits) (text : String) : Except ReadError Json := do
  let cs := text.toList
  let (value, rest) ← readValue limits (2 * cs.length + 1) 0 (skipWhitespace cs)
  if (skipWhitespace rest).isEmpty then return value else .error .malformed

end ColorMod.Json
