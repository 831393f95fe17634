import ColorMod.Proofs.AlphaChannel
import ColorMod.Proofs.SeedChain

/-!
# Adjusters keep alpha and color apart

What a node says as an adjuster does not depend on the color that it is applied to
(`Node.instruction?`), and an adjuster keeps alpha and color apart.  So a list of nodes does, one
step after the other.

* `exists_adjusted_eq`, `eq_or_change_of_adjusted`: all that a node can do to a color.
* `adjusted_withAlpha`, `outcome_applyAdjusters_withAlpha`: what a node, and what a list of nodes,
  does to a color with another alpha.
* `applyAdjusters_alpha_apart`: neither of alpha and color tells of the other.
-/

namespace ColorMod

open Run

variable {α : Type} [Scalar α]

namespace Adjuster

theorem mem_table_of_ofName? {name : String} {adjuster : Adjuster}
    (h : ofName? name = some adjuster) : (name, adjuster) ∈ table := by
  obtain ⟨before, after, htable, -⟩ := List.lookup_eq_some_iff.mp h
  rw [htable]
  simp

end Adjuster

variable [LightCurve α]

/-! ## What a node says as an adjuster -/

namespace Node

/-- The node is an adjuster with one of the given full names. -/
def isAdjusterNamed (n : Node) (names : List String) : Bool :=
  n.isFunction && names.contains (Adjuster.fullName n.value)

/-- The adjuster that a node is, with the values of the form that its arguments fit. -/
def instruction? (n : Node) (ctx : Context α) : Except Fault (Option (Adjuster × List (Value α))) :=
  if n.isFunction then
    match Adjuster.ofName? (Adjuster.fullName n.value) with
    | some adjuster => do
      let values ← (Pattern.firstOf adjuster.patterns (argumentMeanings n) ctx).outcome
      return values.map fun values => (adjuster, values)
    | none => return none
  else return none

/-- The alpha of a color after a node is applied to it. -/
def alphaAfter (n : Node) (ctx : Context α) (present : α) : α :=
  match n.instruction? ctx with
  | .ok (some (adjuster, values)) => adjuster.alphaAfter values present
  | _ => present

theorem ofName?_of_instruction? {n : Node} {ctx : Context α} {adjuster : Adjuster}
    {values : List (Value α)} (h : n.instruction? ctx = .ok (some (adjuster, values))) :
    n.isFunction ∧ Adjuster.ofName? (Adjuster.fullName n.value) = some adjuster := by
  unfold instruction? at h
  split at h
  · next hfun =>
    split at h
    · next adjuster' hname =>
      obtain ⟨read, -, h⟩ := bind_eq_ok_iff.mp h
      cases read with
      | none => cases h
      | some values' => cases h; exact ⟨hfun, hname⟩
    · cases h
  · cases h

theorem firstOf_of_instruction? {n : Node} {ctx : Context α} {adjuster : Adjuster}
    {values : List (Value α)} (h : n.instruction? ctx = .ok (some (adjuster, values))) :
    (Pattern.firstOf adjuster.patterns (argumentMeanings n) ctx).outcome = .ok (some values) := by
  obtain ⟨hfun, hname⟩ := ofName?_of_instruction? h
  rw [instruction?, if_pos hfun, hname] at h
  obtain ⟨read, hread, h⟩ := bind_eq_ok_iff.mp h
  cases read with
  | none => cases h
  | some values' =>
    cases h
    exact hread

/-- A node other than `alpha` and `blenda` keeps alpha. -/
theorem alphaAfter_eq_self {n : Node} (h : ¬n.isAdjusterNamed ["alpha", "blenda"])
    (ctx : Context α) (a : α) : n.alphaAfter ctx a = a := by
  unfold alphaAfter
  split
  · next adjuster values hinstruction =>
    obtain ⟨hfun, hname⟩ := ofName?_of_instruction? hinstruction
    have hnames : ∀ entry ∈ Adjuster.table,
        entry.2 = .channel .alpha ∨ entry.2 = .blendAlpha → entry.1 ∈ ["alpha", "blenda"] := by
      decide
    have hother := hnames _ (Adjuster.mem_table_of_ofName? hname)
    have hfullName : Adjuster.fullName n.value ∉ ["alpha", "blenda"] := by
      intro hmem
      exact h (by rw [isAdjusterNamed, hfun]; exact List.contains_iff_mem.mpr hmem)
    exact Adjuster.alphaAfter_eq_self (fun halpha => hfullName (hother (.inl halpha)))
      (fun hblend => hfullName (hother (.inr hblend))) values a
  · rfl

end Node

/-! ## One node after the other -/

/-- The color after a node is applied to it, the color itself when the node is passed over. -/
def Color.adjusted (c : Color α) (n : Node) (ctx : Context α) : Except Fault (Color α) :=
  (fun resolved : Resolution α => resolved.toOption.getD c) <$> (applyAdjuster c n ctx).outcome

theorem outcome_applyAdjusters_cons (c : Color α) (n : Node) (ns : List Node) (ctx : Context α) :
    (applyAdjusters c (n :: ns) ctx).outcome =
      c.adjusted n ctx >>= fun d => (applyAdjusters d ns ctx).outcome := by
  unfold Color.adjusted
  cases h : (applyAdjuster c n ctx).outcome with
  | error fault => exact outcome_bind_of_error h
  | ok resolved =>
    refine (outcome_bind_of_ok h).trans ?_
    cases resolved with
    | ok d => exact outcome_bind_of_ok rfl
    | error u => exact outcome_bind_of_ok rfl

/-- The color after an instruction; `passed` is how it ends when no color comes of it. -/
def Color.instructed (c : Color α) (passed : Except Fault (Resolution α)) :
    Option (Adjuster × List (Value α)) → Except Fault (Color α)
  | some (adjuster, values) => do
    match ← (adjuster.change c values).mapError .arithmetic with
    | some d => return d
    | none => (fun _ => c) <$> passed
  | none => (fun _ => c) <$> passed

omit [LightCurve α] [Scalar α] in
/-- What leads to no color leaves any color as it is, unless it ends with a fault. -/
theorem getD_of_ne_ok {outcome : Except Fault (Resolution α)} (h : ∀ d, outcome ≠ .ok (.ok d))
    (c : Color α) :
    (fun resolved : Resolution α => resolved.toOption.getD c) <$> outcome =
      (fun _ => c) <$> outcome := by
  match outcome, h with
  | .error fault, _ => rfl
  | .ok (.error u), _ => rfl
  | .ok (.ok d), h => exact absurd rfl (h d)

/-- A node does to each color what it says as an adjuster, and is passed over the same way for
each. -/
theorem exists_adjusted_eq (n : Node) (ctx : Context α) :
    ∃ passed, ∀ c : Color α, c.adjusted n ctx = n.instruction? ctx >>= c.instructed passed := by
  simp only [Color.adjusted, applyAdjuster_eq, ← argumentMeanings_eq]
  unfold Node.instruction? Adjuster.applyNode
  -- `passed` is how the complaint about the node ends, and no complaint looks at the color
  by_cases hfun : n.isFunction
  · simp only [if_pos hfun]
    cases hname : Adjuster.ofName? (Adjuster.fullName n.value) with
    | none =>
      have hunknown : ∀ x : Run α Complaint, ∀ d : Color α,
          (x >>= ctx.reject n n.value).outcome ≠ .ok (.ok d) := by
        intro x d h
        obtain ⟨complaint, -, h⟩ := outcome_bind_eq_ok_iff.mp h
        exact ctx.reject_ne_ok _ _ _ d h
      simp only [pure_bind]
      exact ⟨_, getD_of_ne_ok (hunknown _)⟩
    | some adjuster =>
      let unfit := Adjuster.unfit n adjuster (Adjuster.fullName n.value) (argumentMeanings n) ctx
      have hunfit : ∀ d, unfit.outcome ≠ .ok (.ok d) := Adjuster.unfit_ne_ok _ _ _ _ _
      refine ⟨unfit.outcome, fun c => ?_⟩
      dsimp only
      cases hread : (Pattern.firstOf adjuster.patterns (argumentMeanings n) ctx).outcome with
      | error fault =>
        rw [outcome_bind_of_error hread]
        rfl
      | ok read =>
        rw [outcome_bind_of_ok hread]
        cases read with
        | none => exact getD_of_ne_ok hunfit c
        | some values =>
          change _ = c.instructed unfit.outcome (some (adjuster, values))
          dsimp only [Color.instructed]
          match adjuster.change c values with
          | .error fault => rfl
          | .ok (some d) => rfl
          | .ok none =>
            rw [outcome_bind_of_ok (x := ofArithmetic (.ok none)) (b := none) rfl]
            exact getD_of_ne_ok hunfit c
  · simp only [if_neg hfun, pure_bind]
    exact ⟨_, getD_of_ne_ok (ctx.reject_ne_ok _ _ _)⟩

/-- A node does the same to a color with another alpha. -/
theorem adjusted_withAlpha (c : Color α) (a : α) (n : Node) (ctx : Context α) :
    (c.withAlpha a).adjusted n ctx = (·.withAlpha (n.alphaAfter ctx a)) <$> c.adjusted n ctx := by
  obtain ⟨passed, hadjusted⟩ := exists_adjusted_eq n ctx
  have hpassed : (fun _ => c.withAlpha a) <$> passed = (·.withAlpha a) <$> (fun _ => c) <$> passed :=
    by cases passed <;> rfl
  rw [hadjusted, hadjusted, Node.alphaAfter]
  match n.instruction? ctx with
  | .error fault => rfl
  | .ok none => exact hpassed
  | .ok (some (adjuster, values)) =>
    change (c.withAlpha a).instructed passed (some (adjuster, values)) =
      (·.withAlpha (adjuster.alphaAfter values a)) <$> c.instructed passed (some (adjuster, values))
    dsimp only [Color.instructed]
    rw [adjuster.change_withAlpha c a values]
    match hchange : adjuster.change c values with
    | .error fault => rfl
    | .ok (some d) => rfl
    | .ok none =>
      rw [Adjuster.alphaAfter_of_change_eq_none hchange a]
      exact hpassed

section

variable {c d : Color α} {n : Node} {ctx : Context α}

/-- What a color becomes is the color itself or comes of what the node says. -/
theorem eq_or_change_of_adjusted (h : c.adjusted n ctx = .ok d) :
    d = c ∨ ∃ adjuster values, n.instruction? ctx = .ok (some (adjuster, values)) ∧
      adjuster.change c values = .ok (some d) := by
  obtain ⟨passed, hadjusted⟩ := exists_adjusted_eq n ctx
  have hpassed : (fun _ => c) <$> passed = .ok d → d = c := by
    intro hd
    cases passed with
    | error fault => cases hd
    | ok resolved => cases hd; rfl
  rw [hadjusted] at h
  obtain ⟨instruction, hinstruction, h⟩ := bind_eq_ok_iff.mp h
  match instruction, h with
  | none, h => exact .inl (hpassed h)
  | some (adjuster, values), h =>
    dsimp only [Color.instructed] at h
    match hchange : adjuster.change c values with
    | .error fault => rw [hchange] at h; cases h
    | .ok none => rw [hchange] at h; exact .inl (hpassed h)
    | .ok (some e) =>
      rw [hchange] at h
      cases h
      exact .inr ⟨adjuster, values, hinstruction, hchange⟩

theorem isMade_of_adjusted (hc : c.IsMade) (h : c.adjusted n ctx = .ok d) : d.IsMade := by
  rcases eq_or_change_of_adjusted h with rfl | ⟨adjuster, values, -, hchange⟩
  · exact hc
  · exact Adjuster.isMade_of_change hchange

/-- After `alpha` a color is the same but for alpha. -/
theorem eq_withAlpha_of_adjusted (hn : n.isAdjusterNamed ["alpha"]) (hc : c.IsMade)
    (h : c.adjusted n ctx = .ok d) : ∃ x, d = c.withAlpha x := by
  rcases eq_or_change_of_adjusted h with rfl | ⟨adjuster, values, hinstruction, hchange⟩
  · exact ⟨d.alpha, rfl⟩
  · obtain ⟨-, hname⟩ := Node.ofName?_of_instruction? hinstruction
    have hfullName : Adjuster.fullName n.value = "alpha" := by
      simpa [Node.isAdjusterNamed] using (Bool.and_eq_true_iff.mp hn).2
    rw [hfullName] at hname
    cases hname
    exact Adjuster.eq_withAlpha_of_change hc hchange

end

/-! ## Lists of adjusters -/

/-- The alpha of a color after nodes are applied to it. -/
def alphaAfterAll (ctx : Context α) (nodes : List Node) (a : α) : α :=
  nodes.foldl (fun a n => n.alphaAfter ctx a) a

/-- Nodes do the same to a color with another alpha. -/
theorem outcome_applyAdjusters_withAlpha (c : Color α) (a : α) (nodes : List Node)
    (ctx : Context α) :
    (applyAdjusters (c.withAlpha a) nodes ctx).outcome =
      (·.withAlpha (alphaAfterAll ctx nodes a)) <$> (applyAdjusters c nodes ctx).outcome := by
  induction nodes generalizing c a with
  | nil => rfl
  | cons n ns ih =>
    rw [outcome_applyAdjusters_cons, outcome_applyAdjusters_cons, adjusted_withAlpha,
      bind_map_left, map_bind]
    exact bind_congr fun d => ih d (n.alphaAfter ctx a)

section

variable {c final : Color α} {nodes : List Node} {ctx : Context α}

/-- Alpha comes out as the nodes say, whatever the color is. -/
theorem alpha_of_applyAdjusters (h : (applyAdjusters c nodes ctx).outcome = .ok final) :
    final.alpha = alphaAfterAll ctx nodes c.alpha := by
  have hself := outcome_applyAdjusters_withAlpha c c.alpha nodes ctx
  rw [Color.withAlpha_self, h] at hself
  exact congrArg Color.alpha (Except.ok.inj hself)

/-- Nodes other than `alpha` and `blenda` do not count for alpha. -/
theorem alphaAfterAll_filter (ctx : Context α) (nodes : List Node) (a : α) :
    alphaAfterAll ctx (nodes.filter (·.isAdjusterNamed ["alpha", "blenda"])) a =
      alphaAfterAll ctx nodes a := by
  induction nodes generalizing a with
  | nil => rfl
  | cons n ns ih =>
    by_cases h : n.isAdjusterNamed ["alpha", "blenda"]
    · rw [List.filter_cons, if_pos h]
      exact ih _
    · rw [List.filter_cons, if_neg h, ih]
      exact congrArg (alphaAfterAll ctx ns) (Node.alphaAfter_eq_self h ctx a).symm

/-- Without `alpha` nodes lead to the same color but for its alpha. -/
theorem exists_applyAdjusters_without_alpha (hc : c.IsMade)
    (h : (applyAdjusters c nodes ctx).outcome = .ok final) :
    ∃ final', (applyAdjusters c (nodes.filter fun n => !n.isAdjusterNamed ["alpha"]) ctx).outcome =
      .ok final' ∧ final'.AlphaApart final := by
  induction nodes generalizing c final with
  | nil => exact ⟨final, h, ⟨rfl, rfl, rfl⟩⟩
  | cons n ns ih =>
    rw [outcome_applyAdjusters_cons] at h
    obtain ⟨d, hd, h⟩ := bind_eq_ok_iff.mp h
    by_cases hn : n.isAdjusterNamed ["alpha"]
    · -- the node changed alpha at most, so the others lead on from `c` as from `d`
      obtain ⟨x, rfl⟩ := eq_withAlpha_of_adjusted hn hc hd
      rw [outcome_applyAdjusters_withAlpha] at h
      obtain ⟨e, he, rfl⟩ : ∃ e, (applyAdjusters c ns ctx).outcome = .ok e ∧
          e.withAlpha (alphaAfterAll ctx ns x) = final := by
        cases he : (applyAdjusters c ns ctx).outcome with
        | error fault => rw [he] at h; cases h
        | ok e => rw [he] at h; exact ⟨e, rfl, Except.ok.inj h⟩
      obtain ⟨final', hfinal', hapart⟩ := ih hc he
      rw [List.filter_cons_of_neg (by simpa using hn)]
      exact ⟨final', hfinal', ⟨hapart.space_eq, hapart.channels_eq, hapart.hue_eq⟩⟩
    · obtain ⟨final', hfinal', hapart⟩ := ih (isMade_of_adjusted hc hd) h
      rw [List.filter_cons_of_pos (by simpa using hn), outcome_applyAdjusters_cons]
      exact ⟨final', bind_eq_ok_iff.mpr ⟨d, hd, hfinal'⟩, hapart⟩

end

/-- Alpha and color are apart: when nodes lead from a color to a final one,

* they do so from the color with any other alpha, to a color of the same space, channels and hue;
* so do the nodes without `alpha`;
* the final alpha is the one that `alpha` and `blenda` alone lead to, from any color of that alpha;
* and any other node keeps alpha, in every space. -/
theorem applyAdjusters_alpha_apart (space : ColorSpace) (channels : Triple α) (alpha kept : α)
    (nodes : List Node) (ctx : Context α) (final : Color α)
    (h : (applyAdjusters (.ofChannels space channels alpha kept) nodes ctx).outcome = .ok final) :
    (∀ alpha', ∃ final',
      (applyAdjusters (.ofChannels space channels alpha' kept) nodes ctx).outcome = .ok final' ∧
        final'.AlphaApart final) ∧
    (∃ final', (applyAdjusters (.ofChannels space channels alpha kept)
      (nodes.filter fun n => !n.isAdjusterNamed ["alpha"]) ctx).outcome = .ok final' ∧
        final'.AlphaApart final) ∧
    (∀ space' channels' kept' final', (applyAdjusters (.ofChannels space' channels' alpha kept')
      (nodes.filter fun n => n.isAdjusterNamed ["alpha", "blenda"]) ctx).outcome = .ok final' →
        final'.alpha = final.alpha) ∧
    ∀ (n : Node) (c d : Color α), ¬n.isAdjusterNamed ["alpha", "blenda"] →
      (applyAdjuster c n ctx).outcome = .ok (.ok d) → d.alpha = c.alpha := by
  refine ⟨fun alpha' => ?_, ?_, fun space' channels' kept' final' hfinal' => ?_,
    fun n c d hn hd => ?_⟩
  · have hother := outcome_applyAdjusters_withAlpha
      (.ofChannels space channels alpha kept) alpha' nodes ctx
    rw [h] at hother
    exact ⟨_, hother, final.alphaApart_withAlpha _⟩
  · exact exists_applyAdjusters_without_alpha (Color.isMade_ofChannels ..) h
  · rw [alpha_of_applyAdjusters hfinal', alphaAfterAll_filter, alpha_of_applyAdjusters h]
    rfl
  · -- one node is a list of one
    have hone : (applyAdjusters c [n] ctx).outcome = .ok d := by
      rw [outcome_applyAdjusters_cons, Color.adjusted, hd]
      rfl
    exact (alpha_of_applyAdjusters hone).trans (Node.alphaAfter_eq_self hn ctx c.alpha)

/-- `a(50%) shade(20%) blenda(blue 50%)` -/
def Node.fadedBlend : List Node :=
  [.function "a" [.number "50" "%"], .function "shade" [.number "20" "%"],
    .function "blenda" [.word "blue", .number "50" "%"]]

/-- Red comes out alike from opaque and from faint, and green with the alpha of red. -/
theorem applyAdjusters_alpha_apart_fadedBlend :
    let ctx : Context Float := { policy := .ignore, format := .legacy, maxDepth := 64, cutoff := 75 }
    let alphaNodes := Node.fadedBlend.filter fun n => n.isAdjusterNamed ["alpha", "blenda"]
    ∃ final final' green : Color Float,
      (applyAdjusters (.ofChannels .rgb ⟨1, 0, 0⟩ 1) Node.fadedBlend ctx).outcome = .ok final ∧
      (applyAdjusters (.ofChannels .rgb ⟨1, 0, 0⟩ 0.25) Node.fadedBlend ctx).outcome = .ok final' ∧
      final'.AlphaApart final ∧
      (applyAdjusters (.ofChannels .hsl ⟨120, 1, 0.5⟩ 1) alphaNodes ctx).outcome = .ok green ∧
      green.alpha = final.alpha ∧ alphaNodes.length = 2 := by
  intro ctx alphaNodes
  have hred : (applyAdjusters (.ofChannels .rgb ⟨1, 0, 0⟩ 1) Node.fadedBlend ctx).outcome.isOk := by
    decide +kernel
  have hgreen : (applyAdjusters (.ofChannels .hsl ⟨120, 1, 0.5⟩ 1) alphaNodes ctx).outcome.isOk := by
    decide +kernel
  cases hfinal : (applyAdjusters (.ofChannels .rgb ⟨1, 0, 0⟩ 1) Node.fadedBlend ctx).outcome with
  | error fault => rw [hfinal] at hred; cases hred
  | ok final =>
    obtain ⟨halphas, -, hbases, -⟩ := applyAdjusters_alpha_apart .rgb ⟨1, 0, 0⟩ 1 0 _ ctx final hfinal
    obtain ⟨final', hfinal', hapart⟩ := halphas 0.25
    cases hok : (applyAdjusters (.ofChannels .hsl ⟨120, 1, 0.5⟩ 1) alphaNodes ctx).outcome with
    | error fault => rw [hok] at hgreen; cases hgreen
    | ok green =>
      exact ⟨final, final', green, rfl, hfinal', hapart, rfl, hbases _ _ _ green hok,
        by decide +kernel⟩

end ColorMod
