import ColorMod.Proofs.MonotoneRounding
import ColorMod.Suggestion

/-!
# Which names are suggested

A name that is one of the choices, up to letter case and blanks, is never suggested for itself.  But
the other choices stay, so a name that is known may still be answered with one that is like it.

* `exists_best?`: the choice that is looked up is the earliest of the best ones, as long as shares
  are in the order of some numbers.
* `below_commonShare`: in doubles the share of two texts is a number of the unit interval.
* `reaches_of_below`: a larger share reaches what a smaller one does.
* `suggest_eq_none_iff`: nothing is suggested just when no choice reaches the cutoff.
* `suggest_of_known`: what is suggested for a name that is one of the choices.
-/

namespace ColorMod

namespace Suggestion

/-! ## The best choice -/

section

variable {α : Type} [Scalar α] {query : String} {choices : List String} {value : String → ℚ}
  {choice : String}

/-- The choice is the earliest of those of the largest value. -/
def IsFirstBest (value : String → ℚ) (choices : List String) (choice : String) : Prop :=
  ∃ before after, choices = before ++ choice :: after ∧ (∀ c ∈ before, value c < value choice) ∧
    ∀ c ∈ after, value c ≤ value choice

theorem IsFirstBest.mem (h : IsFirstBest value choices choice) : choice ∈ choices := by
  obtain ⟨before, after, rfl, -⟩ := h
  exact List.mem_append_right before List.mem_cons_self

theorem IsFirstBest.le (h : IsFirstBest value choices choice) {c : String} (hc : c ∈ choices) :
    value c ≤ value choice := by
  obtain ⟨before, after, rfl, hbefore, hafter⟩ := h
  rcases List.mem_append.mp hc with hc | hc
  · exact (hbefore c hc).le
  · rcases List.mem_cons.mp hc with rfl | hc
    · exact le_rfl
    · exact hafter c hc

theorem mem_of_best? {share : α} (h : best? query choices = some (choice, share)) :
    choice ∈ choices := by
  induction choices with
  | nil => cases h
  | cons first rest ih =>
    simp only [best?] at h
    split at h
    · next other otherShare hother =>
      split at h
      · cases h
        exact List.mem_cons_of_mem _ (ih hother)
      · cases h
        exact List.mem_cons_self
    · cases h
      exact List.mem_cons_self

/-- Where shares are in the order of some numbers, the earliest choice of the largest number is
looked up. -/
theorem exists_best? (hne : choices ≠ [])
    (horder : ∀ c ∈ choices, ∀ d ∈ choices,
      (commonShare query c : α) < commonShare query d ↔ value c < value d) :
    ∃ choice, best? query choices = some (choice, (commonShare query choice : α)) ∧
      IsFirstBest value choices choice := by
  induction choices with
  | nil => exact absurd rfl hne
  | cons first rest ih =>
    by_cases hrest : rest = []
    · subst hrest
      exact ⟨first, rfl, [], [], rfl, by simp, by simp⟩
    obtain ⟨other, hother, hbest⟩ := ih hrest fun c hc d hd =>
      horder c (List.mem_cons_of_mem _ hc) d (List.mem_cons_of_mem _ hd)
    have hlt := horder first List.mem_cons_self other (List.mem_cons_of_mem _ hbest.mem)
    simp only [best?, hother]
    by_cases hless : (commonShare query first : α) < commonShare query other
    · obtain ⟨before, after, rfl, hbefore, hafter⟩ := hbest
      refine ⟨other, if_pos hless, first :: before, after, rfl, ?_, hafter⟩
      exact List.forall_mem_cons.mpr ⟨hlt.mp hless, hbefore⟩
    · refine ⟨first, if_neg hless, [], rest, rfl, by simp, fun c hc => ?_⟩
      exact (hbest.le hc).trans (not_lt.mp fun h => hless (hlt.mpr h))

end

/-! ## Shares in doubles -/

section

open Double

/-- A count that a machine can hold is rounded to a double. -/
theorem exists_ofCount {n : ℕ} (hn : n < 2 ^ 64) :
    ∃ p, exactValue? (ofCount n : Float) = some p ∧ Rounds n p := by
  have hlt : (n : ℚ) * 10 ^ (-(0 : ℕ) : ℤ) < 2 ^ (1023 : ℤ) := by
    have hcast : (n : ℚ) < 2 ^ (64 : ℤ) := by exact_mod_cast hn
    rw [Nat.cast_zero, neg_zero, zpow_zero, mul_one]
    exact hcast.trans (zpow_lt_zpow_right₀ one_lt_two (by norm_num))
  obtain ⟨p, hp, hrounds⟩ := exists_ofDecimal n (by decide) hlt
  rw [Nat.cast_zero, neg_zero, zpow_zero, mul_one] at hrounds
  exact ⟨p, hp, hrounds⟩

/-- A part divided by the whole is a number of the unit interval. -/
theorem below_div {x y : Float} {p q : ℚ} (hx : exactValue? x = some p)
    (hy : exactValue? y = some q) (h0 : 0 ≤ p) (hpq : p ≤ q) (hq : 1 ≤ q) : Below (x / y) 1 := by
  have hpos : 0 < q := zero_lt_one.trans_le hq
  have hnonneg : 0 ≤ p / q := div_nonneg h0 hpos.le
  have hle : p / q ≤ 1 := (div_le_one hpos).mpr hpq
  obtain ⟨r, hr, hrounds⟩ := exists_div hx hy hpos.ne'
    (abs_lt_of_le ((abs_of_nonneg hnonneg).le.trans hle) (by norm_num))
  exact ⟨r, 1, hr, exactValue?_one, hrounds.nonneg hnonneg,
    hrounds.le_of_le exactValue?_one hnonneg hle, by norm_num⟩

theorem below_commonShare {s t : String} (hpos : 0 < s.length + t.length)
    (hsize : s.length + t.length < 2 ^ 64) : Below (commonShare s t) 1 := by
  have hle : s.length + t.length - 2 * commonLength s.toList t.toList ≤ s.length + t.length :=
    Nat.sub_le _ _
  obtain ⟨p, hp, hpart⟩ := exists_ofCount (hle.trans_lt hsize)
  obtain ⟨q, hq, hwhole⟩ := exists_ofCount hsize
  have hpart0 : 0 ≤ p := hpart.nonneg (Nat.cast_nonneg _)
  have hpq : p ≤ q := hpart.mono hwhole (Nat.cast_nonneg _) (by exact_mod_cast hle)
  have hq1 : 1 ≤ q := hwhole.ge_of_ge exactValue?_one zero_le_one (by exact_mod_cast hpos)
  exact (below_div hp hq hpart0 hpq hq1).one_sub

/-! ## Reaching the cutoff -/

/-- A cutoff that can be used is a number from 0 to 100, or no number, which nothing reaches. -/
theorem not_le_or_exists_value {c : Float} (h : ¬(c < 0 || 100 < c)) :
    (∀ x, ¬c ≤ x) ∨ ∃ v, exactValue? c = some v ∧ 0 ≤ v ∧ v ≤ 100 := by
  simp only [Bool.or_eq_true, decide_eq_true_eq, not_or] at h
  obtain ⟨hlow, hhigh⟩ := h
  have hvalue : ∀ v, exactValue? c = some v → 0 ≤ v ∧ v ≤ 100 := by
    intro v hv
    rw [lt_iff hv exactValue?_zero] at hlow
    rw [lt_iff exactValue?_hundred hv] at hhigh
    exact ⟨not_lt.mp hlow, not_lt.mp hhigh⟩
  cases hunpack : c.toModel.unpack with
  | notANumber =>
    refine .inl fun x hx => ?_
    change decide (c.toModel ≤ x.toModel) = true at hx
    rw [decide_eq_true_eq] at hx
    change (Float.Model.UnpackedFloat.compare c.toModel.unpack x.toModel.unpack).any (·.isLE) = true
      at hx
    rw [hunpack] at hx
    cases hx
  | infinity s =>
    rw [lt_iff_compare, hunpack] at hlow hhigh
    cases s
    · exact absurd (by decide +kernel) hlow
    · exact absurd (by decide +kernel) hhigh
  | zero s =>
    have hv := exactValue?_of_zero hunpack
    exact .inr ⟨_, hv, hvalue _ hv⟩
  | finite s m e hm =>
    have hv := exactValue?_of_unpack hunpack
    exact .inr ⟨_, hv, hvalue _ hv⟩

/-- What a share reaches, a larger one reaches as well. -/
theorem reaches_of_below {c x y : Float} (hc : ¬(c < 0 || 100 < c)) (hxy : Below x y)
    (hy : Below y 1) (h : reaches c x) : reaches c y := by
  simp only [reaches, Bool.and_eq_true, decide_eq_true_eq] at h ⊢
  obtain ⟨hshare, hhundredth⟩ := h
  obtain hnone | ⟨v, hv, hv0, hv1⟩ := not_le_or_exists_value hc
  · exact absurd hhundredth (hnone _)
  obtain ⟨p, q, hp, hq, hp0, hpq, -⟩ := hxy
  obtain ⟨q', one, hq', hone, -, hq1, -⟩ := hy
  cases hq.symm.trans hq'
  cases hone.symm.trans exactValue?_one
  have hsmall {s : ℚ} (h0 : 0 ≤ s) (h1 : s ≤ 100) : |s| < 2 ^ (1023 : ℤ) :=
    abs_lt_of_le (b := 100) ((abs_of_nonneg h0).le.trans h1) (by norm_num)
  obtain ⟨w, hw, -⟩ := exists_div hv exactValue?_hundred (by norm_num)
    (hsmall (by positivity) ((div_le_self hv0 (by norm_num)).trans hv1))
  obtain ⟨r, hr, hlow⟩ := exists_mul hp exactValue?_hundred
    (hsmall (by positivity) (by linarith [hpq.trans hq1]))
  obtain ⟨s, hs, hhigh⟩ := exists_mul hq exactValue?_hundred
    (hsmall (by linarith [hp0.trans hpq]) (by linarith))
  rw [le_iff hw hp] at hshare
  rw [le_iff hv hr] at hhundredth
  have hrs : r ≤ s := hlow.mono hhigh (by positivity) (by gcongr)
  exact ⟨(le_iff hw hq).mpr (hshare.trans hpq), (le_iff hv hs).mpr (hhundredth.trans hrs)⟩

end

/-! ## Suggestions -/

/-- The choices that may be suggested: neither the name itself nor a single letter. -/
def otherChoices (query : String) (choices : List String) : List String :=
  choices.filter fun c => 2 ≤ c.length && c != query

theorem mem_otherChoices {query : String} {choices : List String} {c : String} :
    c ∈ otherChoices query choices ↔ c ∈ choices ∧ 2 ≤ c.length ∧ c ≠ query := by
  simp [otherChoices]

theorem otherChoices_idem (query : String) (choices : List String) :
    otherChoices query (otherChoices query choices) = otherChoices query choices := by
  simp [otherChoices]

end Suggestion

open Suggestion

section

variable {α : Type} [Scalar α] {name : String} {choices : List String} {cutoff : α}

theorem suggest_of_isEmpty (h : normalized name = "") : suggest name choices cutoff = .ok none := by
  simp [suggest, h]

theorem suggest_of_otherChoices_eq_nil (h : otherChoices (normalized name) choices = []) :
    suggest name choices cutoff = .ok none := by
  unfold otherChoices at h
  simp [suggest, h, best?]

theorem suggest_of_best? {choice : String} {share : α} (hname : normalized name ≠ "")
    (h : best? (normalized name) (otherChoices (normalized name) choices) = some (choice, share)) :
    suggest name choices cutoff =
      if Scalar.toSingle cutoff < 0 || 100 < Scalar.toSingle cutoff then .error .cutoffOutOfRange
      else .ok (if reaches (Scalar.toSingle cutoff) share then some choice else none) := by
  unfold otherChoices at h
  simp [suggest, hname, h]

/-- What is suggested is one of the other choices. -/
theorem mem_of_suggest {choice : String} (h : suggest name choices cutoff = .ok (some choice)) :
    choice ∈ otherChoices (normalized name) choices := by
  by_cases hname : normalized name = ""
  · rw [suggest_of_isEmpty hname] at h
    cases h
  cases hbest : best? (α := α) (normalized name) (otherChoices (normalized name) choices) with
  | none =>
    unfold otherChoices at hbest
    simp [suggest, hname, hbest] at h
  | some best =>
    rw [suggest_of_best? hname hbest] at h
    split at h
    · cases h
    · split at h
      · cases h
        exact mem_of_best? hbest
      · cases h

end

section

variable {name : String} {choices : List String} {cutoff : Float}

/-- A choice of the largest share is looked up: its share bounds those of the other choices. -/
theorem exists_best_other {query : String} (hne : otherChoices query choices ≠ [])
    (hsize : ∀ c ∈ otherChoices query choices, query.length + c.length < 2 ^ 64) :
    ∃ choice ∈ otherChoices query choices,
      best? query (otherChoices query choices) = some (choice, (commonShare query choice : Float)) ∧
      Double.Below (commonShare query choice) 1 ∧
      ∀ c ∈ otherChoices query choices,
        Double.Below (commonShare query c) (commonShare query choice) := by
  have hshare : ∀ c ∈ otherChoices query choices, Double.Below (commonShare query c) 1 := by
    intro c hc
    have hlength := (mem_otherChoices.mp hc).2.1
    exact below_commonShare (by omega) (hsize c hc)
  let value (c : String) : ℚ := (exactValue? (commonShare query c)).getD 0
  have hvalue : ∀ c ∈ otherChoices query choices,
      exactValue? (commonShare query c) = some (value c) := by
    intro c hc
    obtain ⟨p, -, hp, -⟩ := hshare c hc
    rw [hp]
    exact congrArg some (by simp only [value, hp, Option.getD_some])
  obtain ⟨choice, hchoice, hbest⟩ := exists_best? (α := Float) hne
    fun c hc d hd => Double.lt_iff (hvalue c hc) (hvalue d hd)
  refine ⟨choice, hbest.mem, hchoice, hshare choice hbest.mem, fun c hc => ?_⟩
  rw [(hshare c hc).self.iff_le (hshare choice hbest.mem).self,
    Double.le_iff (hvalue c hc) (hvalue choice hbest.mem)]
  exact hbest.le hc

/-- Nothing is suggested just when there is no name or no other choice, or no other choice is like
enough to the name. -/
theorem suggest_eq_none_iff
    (hsize : ∀ c ∈ otherChoices (normalized name) choices,
      (normalized name).length + c.length < 2 ^ 64) :
    suggest name choices cutoff = .ok none ↔
      normalized name = "" ∨ otherChoices (normalized name) choices = [] ∨
      ¬(Scalar.toSingle cutoff < 0 || 100 < Scalar.toSingle cutoff) ∧
        ∀ c ∈ otherChoices (normalized name) choices,
          ¬reaches (Scalar.toSingle cutoff) (commonShare (normalized name) c) := by
  by_cases hname : normalized name = ""
  · exact iff_of_true (suggest_of_isEmpty hname) (.inl hname)
  by_cases hothers : otherChoices (normalized name) choices = []
  · exact iff_of_true (suggest_of_otherChoices_eq_nil hothers) (.inr (.inl hothers))
  rw [or_iff_right hname, or_iff_right hothers]
  obtain ⟨choice, hmem, hchoice, hunit, hbound⟩ := exists_best_other hothers hsize
  rw [suggest_of_best? hname hchoice]
  by_cases hcutoff : Scalar.toSingle cutoff < 0 || 100 < Scalar.toSingle cutoff
  · rw [if_pos hcutoff]
    exact iff_of_false nofun fun h => h.1 hcutoff
  rw [if_neg hcutoff, Except.ok.injEq]
  constructor
  · intro hnone
    refine ⟨hcutoff, fun c hc hreaches => ?_⟩
    rw [if_pos (reaches_of_below hcutoff (hbound c hc) hunit hreaches)] at hnone
    cases hnone
  · rintro ⟨-, hall⟩
    exact if_neg (hall choice hmem)

/-- A hint changes the message that it is put after. -/
theorem withHint_eq_self_iff {message : String} {hint : Option String} :
    withHint message hint = message ↔ hint = none := by
  cases hint with
  | none => exact iff_of_true rfl rfl
  | some choice =>
    refine iff_of_false (fun h => ?_) nofun
    have hlength := congrArg String.length h
    simp only [withHint, String.length_append] at hlength
    have hquote : "'?)".length = 3 := rfl
    omega

/-- For a name that is one of the choices, up to letter case and blanks, the choice itself is left
out, and what is suggested is what the others say.  So nothing is suggested, and the message stays
as it is, just when none of the others is like enough to the name. -/
theorem suggest_of_known (hknown : normalized name ∈ choices) (cutoff : Float) :
    let query := normalized name
    let others := otherChoices query choices
    suggest name choices cutoff = suggest name others cutoff ∧
    (∀ choice, suggest name choices cutoff = .ok (some choice) → choice ∈ others) ∧
    ((∀ c ∈ choices, c.length < 2 ^ 63) →
      (suggest name choices cutoff = .ok none ↔
        query = "" ∨ others = [] ∨
        ¬(Scalar.toSingle cutoff < 0 || 100 < Scalar.toSingle cutoff) ∧
          ∀ c ∈ others, ¬reaches (Scalar.toSingle cutoff) (commonShare query c))) ∧
    ∀ message, (suggest name choices cutoff).map (withHint message) = .ok message ↔
      suggest name choices cutoff = .ok none := by
  intro query others
  refine ⟨?_, fun choice => mem_of_suggest, fun hsize => ?_, fun message => ?_⟩
  · have hsame : otherChoices query others = others := otherChoices_idem query choices
    unfold otherChoices at hsame
    rw [suggest, suggest, hsame]
    rfl
  · refine suggest_eq_none_iff fun c hc => ?_
    have hquery := hsize query hknown
    have hchoice := hsize c (mem_otherChoices.mp hc).1
    change query.length + c.length < 2 ^ 64
    omega
  · cases suggest name choices cutoff with
    | error fault => exact iff_of_false nofun nofun
    | ok hint =>
      rw [Except.map, Except.ok.injEq, Except.ok.injEq]
      exact withHint_eq_self_iff

/-- The adjuster `blend` is one letter short of `blenda`, which is suggested for it. -/
theorem suggest_of_known_blend :
    normalized " Blend" ∈ ["blend", "blenda"] ∧
    suggest " Blend" ["blend", "blenda"] (75 : Float) = .ok (some "blenda") ∧
    (suggest " Blend" ["blend", "blenda"] (75 : Float)).map (withHint "no") ≠ .ok "no" := by
  have hknown : normalized " Blend" ∈ ["blend", "blenda"] := by decide +kernel
  obtain ⟨hothers, -, -, hmessage⟩ := suggest_of_known hknown 75
  have hblenda : suggest " Blend" ["blend", "blenda"] (75 : Float) = .ok (some "blenda") :=
    hothers.trans (by decide +kernel)
  refine ⟨hknown, hblenda, fun h => ?_⟩
  rw [hmessage, hblenda] at h
  cases h

end
end ColorMod
