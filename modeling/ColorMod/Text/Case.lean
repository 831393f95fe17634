import ColorMod.Text.CaseTable

/-!
# Lower and upper case

Whole texts change case, since one letter may become two and the Greek sigma has a form of its own
at the end of a word.  On ASCII letters both maps are the obvious ones.
-/

namespace ColorMod.Text

def inRanges (ranges : List (Nat × Nat)) (c : Char) : Bool :=
  ranges.any fun (low, high) => low ≤ c.toNat && c.toNat ≤ high

def CaseRun.covers (r : CaseRun) (c : Char) : Bool :=
  r.first ≤ c.toNat && c.toNat ≤ r.last && (c.toNat - r.first) % r.step == 0

/-- The counterpart of a letter past ASCII. -/
def counterpart (runs : List CaseRun) (c : Char) : Char :=
  match runs.find? (·.covers c) with
  | some r => Char.ofNat (c.toNat + r.distance).toNat
  | none => c

/-- The lower case of a letter wherever it stands. -/
def lowerChar (c : Char) : List Char :=
  if c.toNat < 0x80 then [c.toLower]
  else if c.toNat == 0x130 then ['i', Char.ofNat 0x307]
  else [counterpart lowerRuns c]

/-- Some letter follows, with nothing but marks in between. -/
def letterFollows (cs : List Char) : Bool :=
  ((cs.dropWhile (inRanges caseIgnorableRanges)).head?.map (inRanges casedRanges)).getD false

/-- The lower case of `cs` after the characters `before`, the nearest one first. -/
def lowerFrom (before : List Char) : List Char → List Char
  | [] => []
  | c :: cs =>
    (if c == 'Σ' then
      [if letterFollows before && !letterFollows cs then 'ς' else 'σ']
    else
      lowerChar c) ++ lowerFrom (c :: before) cs

/-- The text in lower case. -/
def lower (s : String) : String :=
  .ofList (lowerFrom [] s.toList)

/-- The upper case of a letter. -/
def upperChar (c : Char) : List Char :=
  if c.toNat < 0x80 then [c.toUpper]
  else
    match upperSequences.lookup c.toNat with
    | some codes => codes.map Char.ofNat
    | none => [counterpart upperRuns c]

/-- The text in upper case. -/
def upper (s : String) : String :=
  .ofList (s.toList.flatMap upperChar)

end ColorMod.Text
