import Mathlib.Data.List.Basic
import Mathlib.Order.Bounds.Basic
import Mathlib.Order.MinMax
import ColorMod.Suggestion

/-!
# Longest common subsequences

Rows of numbers tell how long a longest common subsequence of two lists is.  A row for `xs` has an
entry for each place of `ys`, the end included: the length for `xs` and what stands in `ys` from
that place on.

* `IsLongestCommon.cons_cons`, `IsLongestCommon.cons_cons_of_ne`: one more character on each side.
* `IsRow.nextRow`: from a row for `xs` to a row for `x :: xs`.
* `isLongestCommon_commonLength`: where the rows come to.
-/

namespace ColorMod

namespace Suggestion

variable {x y : Char} {xs ys : List Char} {m n : ℕ}

/-- The number is the length of a common subsequence of two lists, and none is longer. -/
def IsLongestCommon (xs ys : List Char) (n : ℕ) : Prop :=
  IsGreatest {k | ∃ zs : List Char, zs.Sublist xs ∧ zs.Sublist ys ∧ zs.length = k} n

theorem isLongestCommon_nil_left (ys : List Char) : IsLongestCommon [] ys 0 := by
  refine ⟨⟨[], .slnil, ys.nil_sublist, rfl⟩, ?_⟩
  rintro k ⟨zs, hxs, -, rfl⟩
  exact (congrArg List.length (List.sublist_nil.mp hxs)).le

theorem isLongestCommon_nil_right (xs : List Char) : IsLongestCommon xs [] 0 := by
  refine ⟨⟨[], xs.nil_sublist, .slnil, rfl⟩, ?_⟩
  rintro k ⟨zs, -, hys, rfl⟩
  exact (congrArg List.length (List.sublist_nil.mp hys)).le

namespace IsLongestCommon

/-- The same character on both sides makes a common subsequence one longer. -/
theorem cons_cons (h : IsLongestCommon xs ys n) : IsLongestCommon (x :: xs) (x :: ys) (n + 1) := by
  obtain ⟨⟨zs, hxs, hys, rfl⟩, hbound⟩ := h
  refine ⟨⟨x :: zs, hxs.cons_cons x, hys.cons_cons x, rfl⟩, ?_⟩
  rintro k ⟨ws, hws, hws', rfl⟩
  have htail : ws.tail.length ≤ zs.length := hbound ⟨ws.tail, hws.tail, hws'.tail, rfl⟩
  rw [List.length_tail] at htail
  omega

/-- Of two different characters at most one begins a common subsequence. -/
theorem cons_cons_of_ne (hne : x ≠ y) (hleft : IsLongestCommon xs (y :: ys) m)
    (hright : IsLongestCommon (x :: xs) ys n) :
    IsLongestCommon (x :: xs) (y :: ys) (max m n) := by
  obtain ⟨⟨zs, hzs, hzs', rfl⟩, hbound⟩ := hleft
  obtain ⟨⟨ws, hws, hws', rfl⟩, hbound'⟩ := hright
  constructor
  · rcases le_total zs.length ws.length with hle | hle
    · exact ⟨ws, hws, hws'.cons y, (max_eq_right hle).symm⟩
    · exact ⟨zs, hzs.cons x, hzs', (max_eq_left hle).symm⟩
  · rintro k ⟨us, hus, hus', rfl⟩
    rcases List.sublist_cons_iff.mp hus with hleft | ⟨rest, rfl, -⟩
    · exact le_max_of_le_left (hbound ⟨us, hleft, hus', rfl⟩)
    · refine le_max_of_le_right (hbound' ⟨x :: rest, hus, ?_, rfl⟩)
      rcases List.sublist_cons_iff.mp hus' with hright | ⟨_, heq, -⟩
      · exact hright
      · exact absurd (List.cons.inj heq).1 hne

/-- A common subsequence takes characters of both lists. -/
theorem two_mul_le (h : IsLongestCommon xs ys n) : 2 * n ≤ xs.length + ys.length := by
  obtain ⟨⟨zs, hxs, hys, rfl⟩, -⟩ := h
  have := hxs.length_le
  have := hys.length_le
  omega

end IsLongestCommon

/-! ## Rows -/

/-- The entries of a row for `xs`, from a place of the other list on. -/
inductive IsRow (xs : List Char) : List Char → List ℕ → Prop where
  | nil : IsRow xs [] [0]
  | cons {y : Char} {ys : List Char} {n : ℕ} {row : List ℕ}
      (hentry : IsLongestCommon xs (y :: ys) n) (hrow : IsRow xs ys row) :
      IsRow xs (y :: ys) (n :: row)

theorem isRow_replicate (ys : List Char) : IsRow [] ys (List.replicate (ys.length + 1) 0) := by
  induction ys with
  | nil => exact .nil
  | cons y ys ih => exact .cons (isLongestCommon_nil_left _) ih

namespace IsRow

variable {row : List ℕ}

theorem isLongestCommon (h : IsRow xs ys row) : IsLongestCommon xs ys (row.headD 0) := by
  cases h with
  | nil => exact isLongestCommon_nil_right xs
  | cons hentry hrow => exact hentry

theorem nextRow (h : IsRow xs ys row) : IsRow (x :: xs) ys (nextRow x ys row) := by
  induction h with
  | nil => exact .nil
  | cons hentry hrow ih =>
    rw [Suggestion.nextRow]
    refine .cons ?_ ih
    split
    · next hsame =>
      rw [← beq_iff_eq.mp hsame]
      exact hrow.isLongestCommon.cons_cons
    · next hne => exact .cons_cons_of_ne (by simpa using hne) hentry ih.isLongestCommon

end IsRow

theorem isRow_foldr (xs ys : List Char) : IsRow xs ys
    (xs.foldr (fun x row => nextRow x ys row) (List.replicate (ys.length + 1) 0)) := by
  induction xs with
  | nil => exact isRow_replicate ys
  | cons x xs ih => exact ih.nextRow

/-- The rows come to the length of a longest common subsequence. -/
theorem isLongestCommon_commonLength (xs ys : List Char) :
    IsLongestCommon xs ys (commonLength xs ys) :=
  (isRow_foldr xs ys).isLongestCommon

end Suggestion

end ColorMod
