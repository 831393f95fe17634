import ColorMod.Proofs.CommonSubsequences
import ColorMod.Proofs.Exact
import ColorMod.Proofs.Suggestions

/-!
# Suggestions in exact arithmetic

Over the rational numbers the likeness of two texts is exactly 200 times the length of a longest
common subsequence over the number of their characters, and the choice that is suggested is the
earliest of those that are most like the name.

* `commonShare_eq`: shares of characters as likeness.
* `reaches_commonShare_iff`: what it is to reach a cutoff.
* `suggest_first_best`: what is suggested for a name, for every cutoff.
* `suggest_above_hundred`: a cutoff that cannot be reached is not taken for one.
-/

namespace ColorMod

namespace Suggestion

/-- The likeness of two texts, from 0 to 100. -/
def likeness (s t : String) : ℚ :=
  200 * commonLength s.toList t.toList / (s.length + t.length)

theorem ofCount_eq (n : ℕ) : (ofCount n : ℚ) = n := by
  change (n : ℚ) * 10 ^ (0 : ℤ) = n
  rw [zpow_zero, mul_one]

section

variable {s t : String}

theorem commonShare_eq (hpos : 0 < s.length + t.length) :
    (commonShare s t : ℚ) = likeness s t / 100 := by
  have hle : 2 * commonLength s.toList t.toList ≤ s.length + t.length :=
    (isLongestCommon_commonLength s.toList t.toList).two_mul_le
  have hne : ((s.length + t.length : ℕ) : ℚ) ≠ 0 := by exact_mod_cast hpos.ne'
  calc (commonShare s t : ℚ)
      = 1 - ((s.length + t.length - 2 * commonLength s.toList t.toList : ℕ) : ℚ) /
          ((s.length + t.length : ℕ) : ℚ) := by
        rw [← ofCount_eq, ← ofCount_eq (s.length + t.length)]
        rfl
    _ = 2 * commonLength s.toList t.toList / ((s.length + t.length : ℕ) : ℚ) := by
        rw [Nat.cast_sub hle, sub_div, div_self hne]
        push_cast
        ring
    _ = likeness s t / 100 := by
        unfold likeness
        push_cast
        ring

theorem commonShare_lt_iff {u : String} (ht : 0 < s.length + t.length)
    (hu : 0 < s.length + u.length) :
    (commonShare s t : ℚ) < commonShare s u ↔ likeness s t < likeness s u := by
  rw [commonShare_eq ht, commonShare_eq hu]
  exact div_lt_div_iff_of_pos_right (by norm_num)

theorem reaches_commonShare_iff {cutoff : ℚ} (hpos : 0 < s.length + t.length) :
    reaches cutoff (commonShare s t) ↔ cutoff ≤ likeness s t := by
  rw [commonShare_eq hpos]
  simp only [reaches, Bool.and_eq_true, decide_eq_true_eq]
  constructor
  · rintro ⟨-, h⟩
    linarith
  · intro h
    constructor <;> linarith

end

/-- The other choices are not empty, so they can be compared to a name. -/
theorem length_pos_of_mem_otherChoices {query c : String} {choices : List String}
    (h : c ∈ otherChoices query choices) : 0 < query.length + c.length := by
  have hlength := (mem_otherChoices.mp h).2.1
  omega

/-- The earliest of the choices that are most like a text is looked up. -/
theorem exists_first_best {query : String} {choices : List String}
    (hne : otherChoices query choices ≠ []) :
    ∃ choice, best? query (otherChoices query choices) =
        some (choice, (commonShare query choice : ℚ)) ∧
      IsFirstBest (likeness query) (otherChoices query choices) choice :=
  exists_best? hne fun _ hc _ hd =>
    commonShare_lt_iff (length_pos_of_mem_otherChoices hc) (length_pos_of_mem_otherChoices hd)

theorem range_iff_in_single {cutoff : ℚ} :
    (Scalar.toSingle cutoff < 0 || 100 < Scalar.toSingle cutoff) ↔
      ¬(0 ≤ cutoff ∧ cutoff ≤ 100) := by
  change (decide (cutoff < 0) || decide (100 < cutoff)) = true ↔ _
  simp only [Bool.or_eq_true, decide_eq_true_eq, not_and_or, not_le]

end Suggestion

open Suggestion

section

variable {name : String} {choices : List String}

/-- With a name and another choice, the search comes to the earliest of the best choices, and the
cutoff is looked at last. -/
theorem exists_suggest_eq (hname : normalized name ≠ "")
    (hothers : otherChoices (normalized name) choices ≠ []) (cutoff : ℚ) :
    ∃ choice,
      IsFirstBest (likeness (normalized name)) (otherChoices (normalized name) choices) choice ∧
      suggest name choices cutoff =
        if 0 ≤ cutoff ∧ cutoff ≤ 100 then
          .ok (if cutoff ≤ likeness (normalized name) choice then some choice else none)
        else .error .cutoffOutOfRange := by
  obtain ⟨choice, hchoice, hbest⟩ := exists_first_best hothers
  refine ⟨choice, hbest, ?_⟩
  have hreaches : reaches (Scalar.toSingle cutoff) (commonShare (normalized name) choice : ℚ) ↔
      cutoff ≤ likeness (normalized name) choice :=
    reaches_commonShare_iff (length_pos_of_mem_otherChoices hbest.mem)
  rw [suggest_of_best? hname hchoice]
  by_cases hrange : 0 ≤ cutoff ∧ cutoff ≤ 100
  · rw [if_neg fun h => range_iff_in_single.mp h hrange, if_pos hrange]
    exact congrArg Except.ok (if_congr hreaches rfl rfl)
  · rw [if_pos (range_iff_in_single.mpr hrange), if_neg hrange]

end

/-- For a cutoff from 0 to 100, nothing is suggested just when there is no name or none of the other
choices is as like it as the cutoff says, and else the earliest of those most like it is suggested.
Any other cutoff is a fault if there are a name and another choice.  The likeness is 200 times the
length of a longest common subsequence over the number of characters. -/
theorem suggest_first_best (name : String) (choices : List String) (cutoff : ℚ) :
    let query := normalized name
    let others := otherChoices query choices
    let nothing := query = "" ∨ ∀ c ∈ others, likeness query c < cutoff
    (0 ≤ cutoff ∧ cutoff ≤ 100 →
      (suggest name choices cutoff = .ok none ↔ nothing) ∧
      (¬nothing → ∃ choice, IsFirstBest (likeness query) others choice ∧
        suggest name choices cutoff = .ok (some choice))) ∧
    (¬(0 ≤ cutoff ∧ cutoff ≤ 100) → suggest name choices cutoff =
      if query = "" ∨ others = [] then .ok none else .error .cutoffOutOfRange) ∧
    ∀ c, ∃ length, IsLongestCommon query.toList c.toList length ∧
      likeness query c = 200 * length / (query.length + c.length) := by
  intro query others nothing
  rw [← and_assoc]
  refine ⟨?_, fun c => ⟨_, isLongestCommon_commonLength _ _, rfl⟩⟩
  by_cases hempty : query = "" ∨ others = []
  · have hnone : suggest name choices cutoff = .ok none :=
      hempty.elim suggest_of_isEmpty suggest_of_otherChoices_eq_nil
    have hnothing : nothing := hempty.imp_right fun h => by simp [h]
    exact ⟨fun _ => ⟨iff_of_true hnone hnothing, fun h => absurd hnothing h⟩,
      fun _ => hnone.trans (if_pos hempty).symm⟩
  obtain ⟨hname, hothers⟩ := not_or.mp hempty
  obtain ⟨choice, hbest, hsuggest⟩ := exists_suggest_eq hname hothers cutoff
  -- the best choice is below the cutoff just when all of them are
  have hnothing : nothing ↔ likeness query choice < cutoff :=
    ⟨fun h => h.resolve_left hname choice hbest.mem,
      fun h => .inr fun c hc => (hbest.le hc).trans_lt h⟩
  refine ⟨fun hrange => ?_, fun hrange => ?_⟩
  · rw [hnothing, hsuggest, if_pos hrange, not_lt]
    by_cases hcutoff : cutoff ≤ likeness query choice
    · rw [if_pos hcutoff]
      exact ⟨iff_of_false nofun hcutoff.not_gt, fun _ => ⟨choice, hbest, rfl⟩⟩
    · rw [if_neg hcutoff]
      exact ⟨iff_of_true rfl (not_le.mp hcutoff), fun h => absurd h hcutoff⟩
  · rw [hsuggest, if_neg hrange, if_neg hempty]

/-- Of two choices that are equally like the name the first one is suggested. -/
theorem suggest_first_best_shade :
    let choices := ["s", "shed", "shade", "shede", "shde"]
    (0 ≤ (80 : ℚ) ∧ (80 : ℚ) ≤ 100) ∧ ¬(0 ≤ (-1 : ℚ) ∧ (-1 : ℚ) ≤ 100) ∧
    likeness "shde" "shade" = 800 / 9 ∧ likeness "shde" "shede" = 800 / 9 ∧
    IsFirstBest (likeness (normalized " SHDE")) (otherChoices (normalized " SHDE") choices) "shade" ∧
    suggest " SHDE" choices (80 : ℚ) = .ok (some "shade") ∧
    suggest " SHDE" choices (-1 : ℚ) = .error .cutoffOutOfRange := by
  intro choices
  have hrange : 0 ≤ (80 : ℚ) ∧ (80 : ℚ) ≤ 100 := by norm_num
  have hbelow : ¬(0 ≤ (-1 : ℚ) ∧ (-1 : ℚ) ≤ 100) := by norm_num
  have hname : normalized " SHDE" = "shde" := by decide +kernel
  have hothers : otherChoices "shde" choices = ["shed", "shade", "shede"] := by decide +kernel
  have hshade : suggest " SHDE" choices (80 : ℚ) = .ok (some "shade") := by decide +kernel
  have hlength : commonLength "shde".toList "shade".toList = 4 := by decide +kernel
  have hlength' : commonLength "shde".toList "shede".toList = 4 := by decide +kernel
  have hsize : "shde".length = 4 ∧ "shade".length = 5 ∧ "shede".length = 5 := by decide +kernel
  obtain ⟨hinside, -, -⟩ := suggest_first_best " SHDE" choices 80
  obtain ⟨-, houtside, -⟩ := suggest_first_best " SHDE" choices (-1)
  obtain ⟨hnone, hsome⟩ := hinside hrange
  have hsomething : ¬(normalized " SHDE" = "" ∨
      ∀ c ∈ otherChoices (normalized " SHDE") choices, likeness (normalized " SHDE") c < 80) := by
    rw [← hnone, hshade]
    exact nofun
  obtain ⟨choice, hbest, hchoice⟩ := hsome hsomething
  cases hshade.symm.trans hchoice
  refine ⟨hrange, hbelow, ?_, ?_, hbest, hshade, ?_⟩
  · rw [likeness, hlength, hsize.1, hsize.2.1]
    norm_num
  · rw [likeness, hlength', hsize.1, hsize.2.2]
    norm_num
  · rw [houtside hbelow, hname, hothers]
    rfl

/-- Nothing is as like as 101, and still there is an answer, which is a fault. -/
theorem suggest_above_hundred :
    let query := normalized "shde"
    let others := otherChoices query ["shade"]
    ¬(suggest "shde" ["shade"] (101 : ℚ) = .ok none ↔
      query = "" ∨ ∀ c ∈ others, likeness query c < 101) := by
  intro query others h
  have hname : query = "shde" := by decide +kernel
  have hothers : others = ["shade"] := by decide +kernel
  have hfault : suggest "shde" ["shade"] (101 : ℚ) = .error .cutoffOutOfRange := by decide +kernel
  have hlength : commonLength "shde".toList "shade".toList = 4 := by decide +kernel
  have hsize : "shde".length = 4 ∧ "shade".length = 5 := by decide +kernel
  have hless : likeness "shde" "shade" < 101 := by
    rw [likeness, hlength, hsize.1, hsize.2]
    norm_num
  rw [hname, hothers, List.forall_mem_singleton, hfault] at h
  cases h.mpr (.inr hless)

end ColorMod
