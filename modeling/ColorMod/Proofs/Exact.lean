import Mathlib
import ColorMod.Color.Basic

/-!
# Exact channel arithmetic

Over the rational numbers the operations on channels are those of the ordered field: `larger` is
the maximum, `clamp` goes to the nearest number of the unit interval, and `rem x y` is the number
from 0 to below `y` that differs from `x` by whole multiples of `y`.

* `rem_add_mul`: that number is the only one.
* `Triple.largest_eq_iff`, `Triple.smallest_eq_iff`: which of the channels bounds the others.
* `Triple.InUnit`: every channel lies in the unit interval, which clamping sees to.
-/

namespace ColorMod

namespace Scalar

theorem larger_eq_max (x y : ℚ) : larger x y = max x y := by
  rw [max_def_lt]; rfl

theorem smaller_eq_min (x y : ℚ) : smaller x y = min x y := by
  rw [min_comm, min_def_lt]; rfl

theorem clamp_eq (x : ℚ) : clamp x = max 0 (min 1 x) := by
  rw [clamp, clampTo, larger_eq_max, smaller_eq_min]

theorem clamp_nonneg (x : ℚ) : 0 ≤ clamp x := by
  rw [clamp_eq]
  exact le_max_left _ _

theorem clamp_le_one (x : ℚ) : clamp x ≤ 1 := by
  rw [clamp_eq]
  exact max_le zero_le_one (min_le_left _ _)

theorem clamp_of_mem {x : ℚ} (h0 : 0 ≤ x) (h1 : x ≤ 1) : clamp x = x := by
  rw [clamp_eq, min_eq_right h1, max_eq_right h0]

/-- Clamping does not lead away from a number of the unit interval. -/
theorem abs_clamp_sub_le {v : ℚ} (h0 : 0 ≤ v) (h1 : v ≤ 1) (x : ℚ) : |clamp x - v| ≤ |x - v| := by
  rw [clamp_eq]
  grind

theorem magnitude_eq_abs (x : ℚ) : magnitude x = |x| := by
  rw [magnitude]
  split
  · next h => exact (abs_of_neg h).symm
  · next h => exact (abs_of_nonneg (not_lt.mp h)).symm

theorem divide_eq {x y : ℚ} (h : y ≠ 0) : divide x y = .ok (x / y) :=
  if_neg (by simpa using h)

section

variable {x y : ℚ}

theorem rem_eq (x y : ℚ) : rem x y = x - y * ⌊x / y⌋ := rfl

theorem rem_nonneg (hy : 0 < y) (x : ℚ) : 0 ≤ rem x y := by
  have h := Int.floor_le (x / y)
  rw [le_div_iff₀ hy] at h
  rw [rem_eq]
  linarith

theorem rem_lt (hy : 0 < y) (x : ℚ) : rem x y < y := by
  have h := Int.lt_floor_add_one (x / y)
  rw [div_lt_iff₀ hy] at h
  rw [rem_eq]
  linarith

/-- A number from 0 to below `y` is the remainder of all that differ from it by multiples of `y`. -/
theorem rem_add_mul (h0 : 0 ≤ x) (h1 : x < y) (k : ℤ) : rem (x + y * k) y = x := by
  have hy : 0 < y := h0.trans_lt h1
  have hfloor : ⌊(x + y * k) / y⌋ = k := by
    rw [Int.floor_eq_iff, le_div_iff₀ hy, div_lt_iff₀ hy]
    constructor <;> nlinarith
  rw [rem_eq, hfloor]
  ring

theorem rem_of_mem (h0 : 0 ≤ x) (h1 : x < y) : rem x y = x := by
  simpa using rem_add_mul h0 h1 0

theorem rem_add_turns (x : ℚ) (k : ℤ) : rem (x + 360 * k) 360 = rem x 360 := by
  have hx : x + 360 * k = rem x 360 + 360 * ((⌊x / 360⌋ + k : ℤ) : ℚ) := by
    rw [rem_eq]
    push_cast
    ring
  rw [hx]
  exact rem_add_mul (rem_nonneg (by norm_num) x) (rem_lt (by norm_num) x) _

theorem rem_modEq (x y : ℚ) : rem x y ≡ x [PMOD y] :=
  AddCommGroup.modEq_iff_zsmul.mpr ⟨⌊x / y⌋, by rw [rem_eq, zsmul_eq_mul]; ring⟩

end

end Scalar

open Scalar

namespace Triple

section

variable {t : Triple ℚ} {x : ℚ}

theorem largest_eq (t : Triple ℚ) : t.largest = max (max t.first t.second) t.third := by
  rw [largest, larger_eq_max, larger_eq_max]

theorem smallest_eq (t : Triple ℚ) : t.smallest = min (min t.first t.second) t.third := by
  rw [smallest, smaller_eq_min, smaller_eq_min]

theorem largest_eq_iff : t.largest = x ↔
    (t.first ≤ x ∧ t.second ≤ x ∧ t.third ≤ x) ∧ (t.first = x ∨ t.second = x ∨ t.third = x) := by
  rw [largest_eq]
  grind

theorem smallest_eq_iff : t.smallest = x ↔
    (x ≤ t.first ∧ x ≤ t.second ∧ x ≤ t.third) ∧ (t.first = x ∨ t.second = x ∨ t.third = x) := by
  rw [smallest_eq]
  grind

theorem smallest_le_largest (t : Triple ℚ) : t.smallest ≤ t.largest :=
  (smallest_eq_iff.mp rfl).1.1.trans (largest_eq_iff.mp rfl).1.1

/-- Channels of which none is larger than another are all the same. -/
theorem eq_replicate_smallest (h : t.largest = t.smallest) : t = .replicate t.smallest := by
  obtain ⟨⟨hr, hg, hb⟩, -⟩ := largest_eq_iff.mp h
  obtain ⟨⟨hr', hg', hb'⟩, -⟩ := smallest_eq_iff.mp (rfl : t.smallest = t.smallest)
  calc t = ⟨t.first, t.second, t.third⟩ := rfl
    _ = _ := by rw [le_antisymm hr hr', le_antisymm hg hg', le_antisymm hb hb', replicate]

end

/-- Every channel lies in the unit interval. -/
structure InUnit (t : Triple ℚ) : Prop where
  first : 0 ≤ t.first ∧ t.first ≤ 1
  second : 0 ≤ t.second ∧ t.second ≤ 1
  third : 0 ≤ t.third ∧ t.third ≤ 1

theorem inUnit_map_clamp (t : Triple ℚ) : (t.map clamp).InUnit :=
  ⟨⟨clamp_nonneg _, clamp_le_one _⟩, ⟨clamp_nonneg _, clamp_le_one _⟩,
    ⟨clamp_nonneg _, clamp_le_one _⟩⟩

theorem InUnit.map_clamp {t : Triple ℚ} (h : t.InUnit) : t.map clamp = t := by
  rw [map, clamp_of_mem h.first.1 h.first.2, clamp_of_mem h.second.1 h.second.2,
    clamp_of_mem h.third.1 h.third.2]

theorem InUnit.smallest_nonneg {t : Triple ℚ} (h : t.InUnit) : 0 ≤ t.smallest := by
  rw [smallest_eq]
  exact le_min (le_min h.first.1 h.second.1) h.third.1

theorem InUnit.largest_le_one {t : Triple ℚ} (h : t.InUnit) : t.largest ≤ 1 := by
  rw [largest_eq]
  exact max_le (max_le h.first.2 h.second.2) h.third.2

end Triple

end ColorMod
