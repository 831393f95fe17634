import ColorMod.Proofs.AlphaRuns
import ColorMod.Proofs.ChannelLaws
import ColorMod.Proofs.Forms

/-!
# Hues that are wrapped

A hue adjuster stores the hue that is wanted modulo 360.  The exact remainder is less than 360, but
it is rounded to a double, and less than `2 ^ -45` below 360 that is 360 itself.  A double has such a
remainder only when it lies just below zero.

* `exists_wrapped`, `le_rem_iff`: the double that a hue is wrapped to.
* `hue_adjuster_wraps_iff`: what a hue adjuster stores, and when it lies in the wheel.
-/

namespace ColorMod

open Scalar Double

namespace Double

/-! ## Near the full turn -/

/-- From 256 to 512 doubles are `2 ^ -44` apart. -/
theorem isLastPlace_of_mem {v : ℚ} (h0 : 256 ≤ v) (h1 : v < 512) : IsLastPlace v (-44) := by
  have habs : |v| = v := abs_of_nonneg (by linarith)
  refine ⟨?_, by decide, .inl ?_⟩
  · rw [habs]
    norm_num
    exact h1
  · rw [habs]
    norm_num
    exact h0

/-- A number of the wheel is rounded to one, or to the full turn when it lies too near to that. -/
theorem Rounds.wheel {v r : ℚ} (h : Rounds v r) (h0 : 0 ≤ v) (h1 : v < 360) :
    0 ≤ r ∧ (v < 360 - 1 / 2 ^ 45 → r < 360) ∧ (360 - 1 / 2 ^ 45 ≤ v → r = 360) := by
  have hnonneg := h.nonneg h0
  have habs : |v| = v := abs_of_nonneg h0
  refine ⟨hnonneg, ?_⟩
  by_cases hsmall : v < 256
  · have hnear := (abs_le.mp (h.abs_sub_le (b := 256) (by rw [habs]; exact hsmall.le)
      (by norm_num))).2
    norm_num at hnear
    refine ⟨fun _ => by linarith, fun hlarge => ?_⟩
    norm_num at hlarge
    linarith
  · have hvalue := h.abs_eq (isLastPlace_of_mem (not_lt.mp hsmall) (by linarith))
    rw [abs_of_nonneg hnonneg, habs] at hvalue
    have hunit : (0 : ℚ) < 2 ^ (-44 : ℤ) := by positivity
    have hturn : ((360 * 2 ^ 44 : ℤ) : ℚ) * 2 ^ (-44 : ℤ) = 360 := by norm_num
    have hlt := Decimal.roundEven_lt_iff (q := v / 2 ^ (-44 : ℤ))
      (by decide : (360 * 2 ^ 44 : ℤ) % 2 = 0)
    have hiff : v / 2 ^ (-44 : ℤ) < ((360 * 2 ^ 44 : ℤ) : ℚ) - 1 / 2 ↔ v < 360 - 1 / 2 ^ 45 := by
      rw [div_lt_iff₀ hunit, sub_mul, hturn]
      norm_num
    rw [hiff] at hlt
    constructor
    · intro hv
      calc r = Decimal.roundEven (v / 2 ^ (-44 : ℤ)) * 2 ^ (-44 : ℤ) := hvalue
        _ < ((360 * 2 ^ 44 : ℤ) : ℚ) * 2 ^ (-44 : ℤ) := by
          gcongr
          exact_mod_cast hlt.mpr hv
        _ = 360 := hturn
    · intro hv
      have hle : Decimal.roundEven (v / 2 ^ (-44 : ℤ)) ≤ 360 * 2 ^ 44 := by
        refine Decimal.roundEven_le ?_
        rw [div_le_iff₀ hunit, hturn]
        exact h1.le
      have hround : Decimal.roundEven (v / 2 ^ (-44 : ℤ)) = 360 * 2 ^ 44 :=
        le_antisymm hle (not_lt.mp (hlt.not.mpr (not_lt.mpr hv)))
      rw [hvalue, hround]
      exact hturn

section

variable {x : Float} {q : ℚ} (hx : exactValue? x = some q)

include hx

/-- A hue is wrapped into the wheel, or to the full turn when its remainder lies too near to that. -/
theorem exists_wrapped : ∃ r, exactValue? (rem x 360) = some r ∧ 0 ≤ r ∧
    (rem q 360 < 360 - 1 / 2 ^ 45 → r < 360) ∧ (360 - 1 / 2 ^ 45 ≤ rem q 360 → r = 360) := by
  obtain ⟨r, hr, hrounds⟩ := exists_rem hx exactValue?_wheel (by norm_num) (by norm_num)
  exact ⟨r, hr, hrounds.wheel (rem_nonneg (by norm_num) q) (rem_lt (by norm_num) q)⟩

/-- Only a double just below zero has a remainder that is rounded to the full turn. -/
theorem le_rem_iff : 360 - 1 / 2 ^ 45 ≤ rem q 360 ↔ -1 / 2 ^ 45 ≤ q ∧ q < 0 := by
  have hsmall (h : |q| < 256) : 360 - 1 / 2 ^ 45 ≤ rem q 360 ↔ -1 / 2 ^ 45 ≤ q ∧ q < 0 := by
    obtain ⟨hlow, hhigh⟩ := abs_lt.mp h
    by_cases hq : 0 ≤ q
    · rw [rem_of_mem hq (by linarith)]
      refine iff_of_false ?_ fun h => absurd h.2 (not_lt.mpr hq)
      norm_num
      linarith
    · have hturn := rem_add_mul (x := q + 360) (y := 360) (by linarith) (by linarith) (-1)
      rw [Int.cast_neg, Int.cast_one, mul_neg, mul_one, add_neg_cancel_right] at hturn
      rw [hturn]
      constructor
      · intro h
        exact ⟨by linarith, not_le.mp hq⟩
      · intro h
        linarith [h.1]
  obtain ⟨rfl, -⟩ | ⟨s, m, e, h, -, hdouble, -, hq⟩ := exists_unpack_of_exactValue? hx
  · exact hsmall (by norm_num)
  by_cases he : e ≤ -45
  · refine hsmall ?_
    have hm : (m : ℚ) < 2 ^ 53 := by exact_mod_cast hdouble.lt
    rw [hq, mul_assoc, abs_mul, abs_signOf, one_mul, abs_of_pos (by positivity)]
    calc (m : ℚ) * 2 ^ e < 2 ^ 53 * 2 ^ e := by gcongr
      _ ≤ 2 ^ 53 * 2 ^ (-45 : ℤ) := by gcongr; norm_num
      _ = 256 := by norm_num
  · -- the double is a multiple of `2 ^ -44`, and so is its remainder
    obtain ⟨k, hk⟩ := exists_multiple_of_le s m (by omega : (-44 : ℤ) ≤ e)
    rw [← hq] at hk
    have hmultiple : rem q 360 = (k - 360 * 2 ^ 44 * ⌊q / 360⌋ : ℤ) * 2 ^ (-44 : ℤ) := by
      rw [rem_eq]
      push_cast
      rw [sub_mul, ← hk]
      norm_num
      ring
    have hlt := rem_lt (y := 360) (by norm_num) q
    refine iff_of_false (fun hle => ?_) (fun hq => ?_)
    · rw [hmultiple] at hlt hle
      have hunit : (2 : ℚ) ^ (-44 : ℤ) = 1 / 2 ^ 44 := by norm_num
      rw [hunit, mul_one_div, div_lt_iff₀ (by positivity)] at hlt
      rw [hunit, mul_one_div, le_div_iff₀ (by positivity)] at hle
      have hbelow : k - 360 * 2 ^ 44 * ⌊q / 360⌋ < 360 * 2 ^ 44 := by exact_mod_cast hlt
      have habove : (360 * 2 ^ 44 - 1 : ℚ) < (k - 360 * 2 ^ 44 * ⌊q / 360⌋ : ℤ) := by
        refine lt_of_lt_of_le ?_ hle
        norm_num
      have := (Int.cast_lt (R := ℚ)).mp (by exact_mod_cast habove :
        ((360 * 2 ^ 44 - 1 : ℤ) : ℚ) < (k - 360 * 2 ^ 44 * ⌊q / 360⌋ : ℤ))
      omega
    · rw [hk] at hq
      obtain ⟨hlow, hhigh⟩ := hq
      have hneg : k < 0 := by
        have := neg_of_mul_neg_left hhigh (by positivity)
        exact_mod_cast this
      have hone : (k : ℚ) ≤ -1 := by exact_mod_cast Int.le_sub_one_of_lt hneg
      norm_num at hlow
      linarith

end

/-- A hue that is no number is not wrapped to one. -/
theorem not_mem_wheel_of_none {x : Float} (hx : exactValue? x = none) :
    ¬(0 ≤ rem x 360 ∧ rem x 360 < 360) := by
  have hrem : rem x 360 = 0 / 0 := by
    change floatRem x 360 = 0 / 0
    rw [floatRem, hx]
  rw [hrem]
  decide +kernel

/-- A wrapped hue lies in the wheel unless the hue is no number or lies just below zero. -/
theorem mem_wheel_iff (x : Float) : 0 ≤ rem x 360 ∧ rem x 360 < 360 ↔
    ∃ q, exactValue? x = some q ∧ (q < -1 / 2 ^ 45 ∨ 0 ≤ q) := by
  cases hx : exactValue? x with
  | none => exact iff_of_false (not_mem_wheel_of_none hx) fun ⟨q, hq, _⟩ => by cases hq
  | some q =>
    obtain ⟨r, hr, hnonneg, hlt, heq⟩ := exists_wrapped hx
    have hnear := le_rem_iff hx
    rw [le_iff exactValue?_zero hr, lt_iff hr exactValue?_wheel]
    constructor
    · rintro ⟨-, hr360⟩
      have hfar := hnear.not.mp fun h => absurd (heq h) hr360.ne
      rw [not_and_or, not_le, not_lt] at hfar
      exact ⟨q, rfl, hfar⟩
    · rintro ⟨_, hq, hfar⟩
      cases hq
      refine ⟨hnonneg, hlt (not_le.mp (hnear.not.mpr fun h => ?_))⟩
      rcases hfar with hlow | hhigh
      · exact absurd h.1 (not_le.mpr hlow)
      · exact absurd h.2 (not_lt.mpr hhigh)

end Double

/-! ## Hue adjusters -/

section

variable {α : Type} [Scalar α] [LightCurve α]

/-- A node ends as what it says as an adjuster does. -/
theorem outcome_applyAdjuster_of_instruction? {n : Node} {ctx : Context α} {adjuster : Adjuster}
    {values : List (Value α)} (h : n.instruction? ctx = .ok (some (adjuster, values)))
    {c : Color α} {x : Except ArithmeticFault (Color α)}
    (hchange : adjuster.change c values = some <$> x) :
    (applyAdjuster c n ctx).outcome = .ok <$> x.mapError .arithmetic := by
  obtain ⟨hfun, hname⟩ := Node.ofName?_of_instruction? h
  cases x with
  | ok d =>
    exact applyAdjuster_eq_ok_iff.mpr
      ⟨hfun, adjuster, values, hname, Node.firstOf_of_instruction? h, hchange⟩
  | error fault =>
    rw [applyAdjuster_eq, ← argumentMeanings_eq, Adjuster.applyNode, if_pos hfun]
    dsimp only
    rw [hname]
    refine (Run.outcome_bind_of_ok (Node.firstOf_of_instruction? h)).trans ?_
    refine Run.outcome_bind_of_error ?_
    rw [hchange]
    rfl

end

open Adjuster in
/-- A hue adjuster whose arguments fit ends with the fault of a conversion, or it stores the hue that
is wanted modulo 360.  What is stored lies in the wheel just when the hue that is wanted is a number
that is not within `2 ^ -45` below zero, and for such a number it is the full turn. -/
theorem hue_adjuster_wraps_iff {c : Color Float} (hc : c.IsMade) {n : Node} {ctx : Context Float}
    {values : List (Value Float)}
    (hn : n.instruction? ctx = .ok (some (.channel .hue, values))) :
    (∃ fault, c.hsl = .error fault ∧
      (applyAdjuster c n ctx).outcome = .error (.arithmetic fault)) ∨
    ∃ present t wanted d, c.get .hue = .ok present ∧ c.hsl = .ok t ∧
      newValue? present values = some wanted ∧
      (applyAdjuster c n ctx).outcome = .ok (.ok d) ∧
      d = .ofChannels .hsl { t with first := rem wanted 360 } c.alpha ∧
      (0 ≤ d.hue ∧ d.hue < 360 ↔ ∃ q, value? wanted = some q ∧ (q < -1 / 2 ^ 45 ∨ 0 ≤ q)) ∧
      ∀ q, value? wanted = some q → -1 / 2 ^ 45 ≤ q → q < 0 → d.hue == 360 := by
  have hamount : IsAmount values := by
    obtain ⟨pattern, hpattern, hform⟩ :=
      Pattern.exists_form_of_firstOf (Node.firstOf_of_instruction? hn)
    exact isAmount_of_channel hpattern hform
  obtain ⟨wanted, hwanted, hchannel⟩ := exists_changeChannel_eq hamount
  have hset (x : Float) : c.set .hue (stored .hue x) =
      (fun t => .ofChannels .hsl { t with first := rem x 360 } c.alpha) <$> c.hsl := by
    rw [Color.set]
    dsimp only [Channel.home?, Color.channelsIn]
    cases c.hsl <;> rfl
  cases ht : c.hsl with
  | error fault =>
    -- an rgb color knows its hue, so that it is writing that fails
    have hchange : (channel .hue).change c values = some <$> .error fault := by
      refine (hchannel .hue c).trans ?_
      by_cases hrgb : c.space = .rgb
      · have hget : c.get .hue = .ok c.hue := by simp only [Color.get, hrgb]
        rw [hget]
        change some <$> c.set .hue (stored .hue (wanted c.hue)) = _
        rw [hset, ht]
        rfl
      · have hget : c.get .hue = .error fault := by
          rw [Color.get_eq (fun h => hrgb h.2)]
          dsimp only [Channel.home?, Color.channelsIn]
          rw [ht]
          rfl
        rw [hget]
        rfl
    exact .inl ⟨fault, rfl, outcome_applyAdjuster_of_instruction? hn hchange⟩
  | ok t =>
    have hget : c.get .hue = .ok t.first :=
      hc.get_of_channelsIn (show Channel.home? .hue = some (.hsl, 0) from rfl) ht
    have hchange : (channel .hue).change c values =
        some <$> .ok (.ofChannels .hsl { t with first := rem (wanted t.first) 360 } c.alpha) := by
      refine (hchannel .hue c).trans ?_
      rw [hget]
      change some <$> c.set .hue (stored .hue (wanted t.first)) = _
      rw [hset, ht]
      rfl
    refine .inr ⟨t.first, t, wanted t.first, _, hget, rfl, hwanted t.first,
      outcome_applyAdjuster_of_instruction? hn hchange, rfl, mem_wheel_iff _,
      fun q hq hlow hhigh => ?_⟩
    obtain ⟨r, hr, -, -, hturn⟩ := exists_wrapped hq
    exact (beq_iff hr exactValue?_wheel).mpr (hturn ((le_rem_iff hq).mpr ⟨hlow, hhigh⟩))

/-- `hue(- 1e-20)` -/
def Node.hueJustBelow : Node :=
  .function "hue" [.operator "-", .number "1e-20"]

/-- The red of hue zero is turned to the hue 360 by it. -/
theorem hue_adjuster_wraps_iff_hueJustBelow :
    let ctx : Context Float := { policy := .raise, format := .legacy, maxDepth := 64, cutoff := 75 }
    let red : Color Float := .ofChannels .hsl ⟨0, 1, 0.5⟩ 1
    ∃ values d, Node.hueJustBelow.instruction? ctx = .ok (some (.channel .hue, values)) ∧
      (applyAdjuster red Node.hueJustBelow ctx).outcome = .ok (.ok d) ∧ d.hue == 360 ∧
      ¬(0 ≤ d.hue ∧ d.hue < 360) := by
  intro ctx red
  have hreads : (Node.hueJustBelow.instruction? ctx).toOption.join.any (fun instruction =>
      instruction.1 = .channel .hue && (Adjuster.newValue? 0 instruction.2).any fun wanted =>
        (value? wanted).any fun q => -1 / 2 ^ 45 ≤ q ∧ q < 0) = true := by
    decide +kernel
  obtain ⟨⟨adjuster, values⟩, hfound, hreads⟩ := (Option.any_eq_true _ _).mp hreads
  obtain ⟨hadjuster, hreads⟩ := (Bool.and_eq_true _ _).mp hreads
  obtain rfl : adjuster = .channel .hue := of_decide_eq_true hadjuster
  have hinstruction : Node.hueJustBelow.instruction? ctx = .ok (some (.channel .hue, values)) := by
    cases hread : Node.hueJustBelow.instruction? ctx with
    | error fault =>
      rw [hread] at hfound
      cases hfound
    | ok instruction =>
      rw [hread] at hfound
      exact congrArg Except.ok hfound
  obtain ⟨wanted, hwanted, hvalue⟩ := (Option.any_eq_true _ _).mp hreads
  obtain ⟨q, hq, hband⟩ := (Option.any_eq_true _ _).mp hvalue
  obtain ⟨hlow, hhigh⟩ := of_decide_eq_true hband
  rcases hue_adjuster_wraps_iff (Color.isMade_ofChannels ..) (c := red) hinstruction with
    ⟨fault, hfault, -⟩ | ⟨present, t, wanted', d, hpresent, -, hwanted', hd, -, hiff, hturn⟩
  · cases hfault
  · cases hpresent
    cases hwanted.symm.trans hwanted'
    refine ⟨values, d, hinstruction, hd, hturn q hq hlow hhigh, fun hwheel => ?_⟩
    obtain ⟨q', hq', hfar⟩ := hiff.mp hwheel
    cases hq.symm.trans hq'
    rcases hfar with hfar | hfar
    · exact absurd hlow (not_le.mpr hfar)
    · exact absurd hhigh (not_lt.mpr hfar)

end ColorMod
