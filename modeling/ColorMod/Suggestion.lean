import ColorMod.Scalar
import ColorMod.Text.Words
import ColorMod.Text.Case

/-!
# Suggestions for misspelled names

The likeness of two texts is 100 times the share of their characters that lie in a longest common
subsequence.  `suggest` looks for the choice most like a name: the first of the best ones, if its
likeness reaches a cutoff.  Neither the name itself nor a single letter is ever suggested.

The cutoff counts in single precision, and one that is not from 0 to 100 is a fault as soon as there
is a choice to compare.
-/

namespace ColorMod

namespace Suggestion

/-- The row for `x :: xs` from the row for `xs`: the entry at each place is the length of a longest
common subsequence with the rest of `ys` from that place on. -/
def nextRow (x : Char) : List Char → List Nat → List Nat
  | y :: ys, below :: row =>
    let after := nextRow x ys row
    (if x == y then row.headD 0 + 1 else max below (after.headD 0)) :: after
  | _, _ => [0]

/-- The length of a longest common subsequence. -/
def commonLength (xs ys : List Char) : Nat :=
  (xs.foldr (fun x row => nextRow x ys row) (List.replicate (ys.length + 1) 0)).headD 0

variable {α : Type} [Scalar α]

def ofCount (n : Nat) : α :=
  Scalar.ofDecimal n 0

/-- The share of the characters of two texts that they have in common. -/
def commonShare (s t : String) : α :=
  let total := s.length + t.length
  1 - ofCount (total - 2 * commonLength s.toList t.toList) / ofCount total

/-- The text in lower case with one blank between words. -/
def normalized (s : String) : String :=
  " ".intercalate (Text.words (Text.lower s))

/-- The choice most like `query` and its share in common, the earliest of the best ones. -/
def best? (query : String) : List String → Option (String × α)
  | [] => none
  | choice :: choices =>
    let share := commonShare query choice
    match best? query choices with
    | some (other, otherShare) =>
      if share < otherShare then some (other, otherShare) else some (choice, share)
    | none => some (choice, share)

/-- The likeness of texts with a share in common reaches a cutoff, as a share and in hundredths. -/
def reaches (cutoff share : α) : Bool :=
  cutoff / 100 ≤ share && cutoff ≤ share * 100

/-- Why no suggestion can be looked for. -/
inductive Fault where
  | cutoffOutOfRange
  deriving DecidableEq, Repr, Inhabited

def Fault.message : Fault → String
  | cutoffOutOfRange => "score_cutoff has to be in the range of 0.0 - 100.0"

end Suggestion

open Suggestion in
/-- The choice that `name` may have been meant to be. -/
def suggest {α : Type} [Scalar α] (name : String) (choices : List String) (cutoff : α) :
    Except Suggestion.Fault (Option String) :=
  let query := normalized name
  let cutoff := Scalar.toSingle cutoff
  if query.isEmpty then .ok none
  else
    match best? query (choices.filter fun c => 2 ≤ c.length && c != query) with
    | none => .ok none
    | some (choice, share) =>
      if cutoff < 0 || 100 < cutoff then .error .cutoffOutOfRange
      else .ok (if reaches cutoff share then some choice else none)

/-- The message with a hint at the name that may have been meant. -/
def withHint (message : String) : Option String → String
  | some choice => message ++ " (did you mean '" ++ choice ++ "'?)"
  | none => message

end ColorMod
