/-!
# Words and parts of a text

* `trim`: a text without the characters of a class at its ends.
* `words`: the maximal runs of characters that are not blank.
* `split`: the parts between separators, of which there is always one more than separators.
-/

namespace ColorMod.Text

/-- The blanks past ASCII. -/
def wideBlanks : List Nat :=
  [0x85, 0xA0, 0x1680, 0x2000, 0x2001, 0x2002, 0x2003, 0x2004, 0x2005, 0x2006, 0x2007, 0x2008,
   0x2009, 0x200A, 0x2028, 0x2029, 0x202F, 0x205F, 0x3000]

/-- The characters that end a word: the blank, the ASCII controls for layout and separation, and
the blanks of Unicode. -/
def isBlank (c : Char) : Bool :=
  c == ' ' || (0x09 ≤ c.toNat && c.toNat ≤ 0x0D) || (0x1C ≤ c.toNat && c.toNat ≤ 0x1F) ||
    wideBlanks.contains c.toNat

def trimChars (p : Char → Bool) (cs : List Char) : List Char :=
  ((cs.dropWhile p).reverse.dropWhile p).reverse

/-- The text without characters of `p` at its ends. -/
def trim (s : String) (p : Char → Bool := isBlank) : String :=
  .ofList (trimChars p s.toList)

/-- The words of a list of characters, given the letters of the word that is being read. -/
def wordsFrom (word : List Char) : List Char → List (List Char)
  | [] => if word.isEmpty then [] else [word.reverse]
  | c :: cs =>
    if isBlank c then
      if word.isEmpty then wordsFrom [] cs else word.reverse :: wordsFrom [] cs
    else
      wordsFrom (c :: word) cs

/-- The maximal runs of characters that are not blank. -/
def words (s : String) : List String :=
  (wordsFrom [] s.toList).map .ofList

/-- The parts of a list of characters, given the characters of the part that is being read. -/
def splitFrom (separator : Char) (part : List Char) : List Char → List (List Char)
  | [] => [part.reverse]
  | c :: cs =>
    if c == separator then part.reverse :: splitFrom separator [] cs
    else splitFrom separator (c :: part) cs

/-- The parts of a text between the separators. -/
def split (s : String) (separator : Char) : List String :=
  (splitFrom separator [] s.toList).map .ofList

end ColorMod.Text
