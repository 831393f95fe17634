import ColorMod.Proofs.AlphaRuns
import ColorMod.Proofs.Forms
import ColorMod.Proofs.SilentReading

/-!
# Which adjusters are skipped

An adjuster is skipped for what it says and never for the color it is applied to: a node that fits a
form changes each color that can be changed, and one that fits none is complained about in the same
words for each (`Node.complaints`).

* `returns_applyAdjuster`: one node, applied to any color.
* `diagnostics_applyAdjusters`, `returns_applyAdjusters_filter`: a list of nodes, and the same list
  without the nodes that are complained about.
* `applyAdjusters_skips_alike`: two colors with the same list.
-/

namespace ColorMod

open Run

variable {α : Type} [Scalar α]

/-- The complaint about a node that is no adjuster, or whose arguments fit no form of it. -/
def Adjuster.complain (node : Node) (args : List (Argument α)) (ctx : Context α) :
    Run α (Resolution α) := do
  if node.isFunction then
    let name := fullName node.value
    match ofName? name with
    | none => ctx.reject node node.value (← unknownName node.value name ctx)
    | some adjuster => unfit node adjuster name args ctx
  else
    ctx.reject node node.render .noAdjuster

theorem Adjuster.complain_ne_ok (node : Node) (args : List (Argument α)) (ctx : Context α)
    (c : Color α) : (complain node args ctx).outcome ≠ .ok (.ok c) := by
  unfold complain
  split
  · dsimp only
    split
    · intro h
      obtain ⟨complaint, -, h⟩ := outcome_bind_eq_ok_iff.mp h
      exact ctx.reject_ne_ok _ _ _ c h
    · exact unfit_ne_ok _ _ _ _ _ c
  · exact ctx.reject_ne_ok _ _ _ c

variable [LightCurve α]

namespace Node

/-- The node is an adjuster whose arguments fit a form of it. -/
def isInstruction (n : Node) (ctx : Context α) : Bool :=
  match n.instruction? ctx with
  | .ok (some _) => true
  | _ => false

/-- What `warn` notes about a node as an adjuster. -/
def complaints (ctx : Context α) (n : Node) : List Diagnostic :=
  if n.isInstruction ctx then []
  else (Adjuster.complain n (argumentMeanings n) (ctx.under .warn)).diagnostics

theorem isInstruction_under (n : Node) (ctx : Context α) (p : Policy) :
    n.isInstruction (ctx.under p) = n.isInstruction ctx := by
  simp only [isInstruction, instruction?, Pattern.firstOf_under]

end Node

/-! ## One node -/

section

variable {c : Color α} {n : Node} {ctx : Context α} {resolved : Resolution α}
  {ds : List Diagnostic}

/-- An instruction leads to a color, and any other node to the complaint about it. -/
theorem returns_applyAdjuster (h : Returns (applyAdjuster c n ctx) resolved ds) :
    n.isInstruction ctx = true ∧ (∃ d, resolved = .ok d) ∨
      n.isInstruction ctx = false ∧
        Returns (Adjuster.complain n (argumentMeanings n) ctx) resolved ds := by
  rw [applyAdjuster_eq, ← argumentMeanings_eq] at h
  unfold Adjuster.applyNode at h
  unfold Node.isInstruction Node.instruction? Adjuster.complain
  by_cases hfun : n.isFunction
  · rw [if_pos hfun] at h ⊢
    rw [if_pos hfun]
    dsimp only at h ⊢
    cases hname : Adjuster.ofName? (Adjuster.fullName n.value) with
    | none =>
      rw [hname] at h
      exact .inr ⟨rfl, h⟩
    | some adjuster =>
      rw [hname] at h
      obtain ⟨read, ds₁, ds₂, hread, h, rfl⟩ := returns_bind_iff.mp h
      obtain rfl : ds₁ = [] :=
        hread.diagnostics_eq.symm.trans (Pattern.silent_firstOf adjuster.patterns n ctx).diagnostics_eq
      have hfirst := hread.outcome_eq
      cases read with
      | none => exact .inr ⟨by simp only [hfirst]; rfl, h⟩
      | some values =>
        refine .inl ⟨by simp only [hfirst]; rfl, ?_⟩
        obtain ⟨changed, _, _, hchange, h, -⟩ := returns_bind_iff.mp h
        cases changed with
        | some d => exact ⟨d, (returns_pure_iff.mp h).1⟩
        | none =>
          -- the values of a form always lead to a color
          obtain ⟨pattern, hpattern, hform⟩ := Pattern.exists_form_of_firstOf hfirst
          have hnone := outcome_ofArithmetic_eq_ok_iff.mp hchange.outcome_eq
          exact absurd hnone (Adjuster.change_ne_none hpattern hform c)
  · rw [if_neg hfun] at h ⊢
    rw [if_neg hfun]
    exact .inr ⟨rfl, h⟩

/-- What is noted about a node does not depend on the color, and something is noted about those
nodes only that lead to no color. -/
theorem diagnostics_applyAdjuster
    (h : (applyAdjuster c n (ctx.under .warn)).outcome = .ok resolved) :
    (applyAdjuster c n (ctx.under .warn)).diagnostics = n.complaints ctx ∧
      (n.complaints ctx = [] ↔ resolved.isOk) := by
  have hreports := applyAdjuster_reports n ctx c
  unfold Node.complaints
  rw [← n.isInstruction_under ctx .warn]
  rcases returns_applyAdjuster ⟨h, rfl⟩ with ⟨hinstruction, d, rfl⟩ | ⟨hinstruction, hcomplain⟩
  · rw [hinstruction, if_pos rfl]
    exact ⟨hreports.of_ok d h, iff_of_true rfl rfl⟩
  · rw [hinstruction, if_neg Bool.false_ne_true, hcomplain.diagnostics_eq]
    refine ⟨rfl, ?_⟩
    cases resolved with
    | ok d => exact absurd hcomplain.outcome_eq (Adjuster.complain_ne_ok _ _ _ d)
    | error u =>
      rw [hreports.of_error u h]
      exact iff_of_false (List.cons_ne_nil _ _) (by simp [Except.isOk, Except.toBool])

end

/-! ## Lists of nodes -/

section

variable {c final : Color α} {nodes : List Node} {ctx : Context α}

/-- A list notes what is noted about its nodes one by one. -/
theorem diagnostics_applyAdjusters
    (h : (applyAdjusters c nodes (ctx.under .warn)).outcome = .ok final) :
    (applyAdjusters c nodes (ctx.under .warn)).diagnostics =
      nodes.flatMap (·.complaints ctx) := by
  induction nodes generalizing c with
  | nil => rfl
  | cons n ns ih =>
    obtain ⟨resolved, hresolved, h⟩ := outcome_bind_eq_ok_iff.mp h
    obtain ⟨hnoted, -⟩ := diagnostics_applyAdjuster hresolved
    refine (diagnostics_bind_of_ok hresolved).trans ?_
    rw [List.flatMap_cons]
    refine congrArg₂ _ hnoted ?_
    cases resolved with
    | ok d => exact ih h
    | error u => exact ih h

/-- Without the nodes that are complained about a list leads to the same color and notes nothing. -/
theorem returns_applyAdjusters_filter
    (h : (applyAdjusters c nodes (ctx.under .warn)).outcome = .ok final) :
    Returns (applyAdjusters c (nodes.filter fun n => (n.complaints ctx).isEmpty) (ctx.under .warn))
      final [] := by
  induction nodes generalizing c with
  | nil => exact ⟨h, rfl⟩
  | cons n ns ih =>
    obtain ⟨resolved, hresolved, h⟩ := outcome_bind_eq_ok_iff.mp h
    obtain ⟨hnoted, hempty⟩ := diagnostics_applyAdjuster hresolved
    cases resolved with
    | ok d =>
      have hnil := hempty.mpr rfl
      rw [List.filter_cons_of_pos (by rw [hnil]; rfl)]
      exact returns_bind_iff.mpr
        ⟨.ok d, [], [], ⟨hresolved, hnoted.trans hnil⟩, returns_tell_bind_iff.mpr (ih h), rfl⟩
    | error u =>
      have hne : n.complaints ctx ≠ [] := fun hnil => Bool.false_ne_true (hempty.mp hnil)
      rw [List.filter_cons_of_neg (by simpa using hne)]
      exact ih h

end

/-- Nodes are skipped alike for any two colors that they lead on from: the same is noted in the same
order, one complaint for each node that is applied to no color, and each color ends as without these
nodes. -/
theorem applyAdjusters_skips_alike (nodes : List Node) (ctx : Context α) (c d c' d' : Color α)
    (hc : (applyAdjusters c nodes (ctx.under .warn)).outcome = .ok c')
    (hd : (applyAdjusters d nodes (ctx.under .warn)).outcome = .ok d') :
    let kept := nodes.filter fun n => (n.complaints ctx).isEmpty
    (applyAdjusters c nodes (ctx.under .warn)).diagnostics =
      (applyAdjusters d nodes (ctx.under .warn)).diagnostics ∧
    (applyAdjusters c nodes (ctx.under .warn)).diagnostics = nodes.flatMap (·.complaints ctx) ∧
    (∀ n e resolved, (applyAdjuster e n (ctx.under .warn)).outcome = .ok resolved →
      (applyAdjuster e n (ctx.under .warn)).diagnostics = n.complaints ctx ∧
        (n.complaints ctx = [] ↔ resolved.isOk)) ∧
    Returns (applyAdjusters c kept (ctx.under .warn)) c' [] ∧
    Returns (applyAdjusters d kept (ctx.under .warn)) d' [] := by
  have hsame := (diagnostics_applyAdjusters hc).trans (diagnostics_applyAdjusters hd).symm
  exact ⟨hsame, diagnostics_applyAdjusters hc, fun n e resolved h => diagnostics_applyAdjuster h,
    returns_applyAdjusters_filter hc, returns_applyAdjusters_filter hd⟩

/-- `shade(20%) nope() blend(blue 50% lab) hue(+ 30)` -/
def Node.twoMisspelled : List Node :=
  [.function "shade" [.number "20" "%"], .function "nope" [],
    .function "blend" [.word "blue", .number "50" "%", .word "lab"],
    .function "hue" [.operator "+", .number "30"]]

/-- The second and the third node are skipped for a red as for a green, and only they. -/
theorem applyAdjusters_skips_alike_twoMisspelled :
    let ctx : Context Float := { policy := .warn, format := .legacy, maxDepth := 64, cutoff := 75 }
    let red : Color Float := .ofChannels .rgb ⟨1, 0, 0⟩ 1
    let green : Color Float := .ofChannels .hsl ⟨120, 1, 0.5⟩ 0.25
    let kept := [Node.function "shade" [.number "20" "%"],
      Node.function "hue" [.operator "+", .number "30"]]
    ∃ red' green', (applyAdjusters red Node.twoMisspelled ctx).outcome = .ok red' ∧
      (applyAdjusters green Node.twoMisspelled ctx).outcome = .ok green' ∧
      (applyAdjusters red Node.twoMisspelled ctx).diagnostics.map Diagnostic.word = ["nope", "lab"] ∧
      (applyAdjusters green Node.twoMisspelled ctx).diagnostics =
        (applyAdjusters red Node.twoMisspelled ctx).diagnostics ∧
      Returns (applyAdjusters red kept ctx) red' [] ∧
      Returns (applyAdjusters green kept ctx) green' [] := by
  intro ctx red green kept
  have hred : (applyAdjusters red Node.twoMisspelled ctx).outcome.isOk := by decide +kernel
  have hgreen : (applyAdjusters green Node.twoMisspelled ctx).outcome.isOk := by decide +kernel
  have hwords : (applyAdjusters red Node.twoMisspelled ctx).diagnostics.map Diagnostic.word =
      ["nope", "lab"] := by decide +kernel
  have hkept : (Node.twoMisspelled.filter fun n => (n.complaints ctx).isEmpty) = kept := by
    have hempty : Node.twoMisspelled.map (fun n => (n.complaints ctx).isEmpty) =
        [true, false, false, true] := by decide +kernel
    simp only [Node.twoMisspelled, List.map_cons, List.map_nil, List.cons.injEq] at hempty
    obtain ⟨hshade, hnope, hblend, hhue, -⟩ := hempty
    simp only [Node.twoMisspelled, List.filter, hshade, hnope, hblend, hhue, kept]
  cases hok : (applyAdjusters red Node.twoMisspelled ctx).outcome with
  | error fault => rw [hok] at hred; cases hred
  | ok red' =>
    cases hok' : (applyAdjusters green Node.twoMisspelled ctx).outcome with
    | error fault => rw [hok'] at hgreen; cases hgreen
    | ok green' =>
      obtain ⟨hsame, -, -, hredKept, hgreenKept⟩ :=
        applyAdjusters_skips_alike Node.twoMisspelled ctx red green red' green' hok hok'
      rw [hkept] at hredKept hgreenKept
      exact ⟨red', green', rfl, rfl, hwords, hsame.symm, hredKept, hgreenKept⟩

end ColorMod
