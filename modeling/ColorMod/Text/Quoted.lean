import ColorMod.Text.CodePoint
import ColorMod.Text.Printable

/-!
# Quoted text

How messages quote a text: between apostrophes, or between double quotes when it holds an apostrophe
and no double quote.  The closing quote and the backslash are escaped, and so is every code point
without a visible form.
-/

namespace ColorMod.Text

/-- The `width` lowest digits of `n` in base sixteen. -/
def hexDigits (width n : Nat) : List Char :=
  (List.range width).reverse.map fun place => Nat.digitChar (n / Nat.pow 16 place % 16)

def escapeChar (quote c : Char) : List Char :=
  if c == quote || c == '\\' then ['\\', c]
  else if c == '\t' then ['\\', 't']
  else if c == '\n' then ['\\', 'n']
  else if c == '\r' then ['\\', 'r']
  else if isPrintable c then [c]
  else if c.toNat < 0x100 then '\\' :: 'x' :: hexDigits 2 c.toNat
  else if c.toNat < 0x10000 then '\\' :: 'u' :: hexDigits 4 c.toNat
  else '\\' :: 'U' :: hexDigits 8 c.toNat

def escapePoint (quote : Char) : CodePoint → List Char
  | .character c => escapeChar quote c
  | .surrogate n => '\\' :: 'u' :: hexDigits 4 (CodePoint.surrogate n).toNat

def quoteFor (t : CodeText) : Char :=
  if t.contains (.character '\'') && !t.contains (.character '"') then '"' else '\''

/-- The text as messages quote it. -/
def quoted (t : CodeText) : String :=
  let quote := quoteFor t
  .ofList (quote :: t.flatMap (escapePoint quote) ++ [quote])

/-- A list of texts as messages quote it. -/
def quotedList (items : List String) : String :=
  "[" ++ ", ".intercalate (items.map fun item : String => quoted item) ++ "]"

end ColorMod.Text
