import ColorMod.Proofs.Reports
import ColorMod.Proofs.Walks

/-!
# Walks under the three policies

The walk over a tree agrees under the three policies (`walk_agree`) because resolving a call does,
and a walk of agreeing parts agrees.  The tree is part of it: as long as the runs go alike the trees
are the same (`Walked.Agree`).

* `walk_policies_agree`: the trees, the ends and the reports of the three walks over one tree.
-/

namespace ColorMod

open Run

variable {α β : Type}

/-- One walk under each policy: the runs agree, and the tree is the same as far as they do. -/
structure Walked.Agree (walked : Policy → Walked α β) : Prop extends
    Run.Agree fun p => (walked p).run where
  result_eq : (walked .ignore).result = (walked .warn).result
  result_of_unreported : (walked .warn).run.diagnostics = [] →
    (walked .raise).result = (walked .warn).result

theorem Walked.Agree.cons {first : Policy → Walked α β} {rest : Policy → Walked α (List β)}
    (others : List β) (hfirst : Walked.Agree first) (hrest : Walked.Agree rest) :
    Walked.Agree fun p => (first p).cons others fun _ => rest p := by
  have hrun : Run.Agree fun p => ((first p).cons others fun _ => rest p).run := by
    simp only [Walked.cons_run]
    exact hfirst.toAgree.bind fun _ => hrest.toAgree
  refine { toAgree := hrun, result_eq := ?_, result_of_unreported := fun h => ?_ }
  · cases hw : (first .warn).run.outcome with
    | ok u =>
      have hi := hfirst.outcome_eq.trans hw
      rw [Walked.cons_result_of_ok hi, Walked.cons_result_of_ok hw, hfirst.result_eq,
        hrest.result_eq]
    | error e =>
      have hi := hfirst.outcome_eq.trans hw
      rw [Walked.cons_result_of_error hi, Walked.cons_result_of_error hw, hfirst.result_eq]
  · rw [Walked.cons_run] at h
    cases hw : (first .warn).run.outcome with
    | ok u =>
      rw [diagnostics_bind_of_ok hw, List.append_eq_nil_iff] at h
      have hr := (hfirst.unreported h.1).trans hw
      rw [Walked.cons_result_of_ok hr, Walked.cons_result_of_ok hw,
        hfirst.result_of_unreported h.1, hrest.result_of_unreported h.2]
    | error e =>
      rw [diagnostics_bind_of_error hw] at h
      have hr := (hfirst.unreported h).trans hw
      rw [Walked.cons_result_of_error hr, Walked.cons_result_of_error hw,
        hfirst.result_of_unreported h]

theorem Walked.Agree.const (x : β) : Walked.Agree fun _ => (⟨x, pure ()⟩ : Walked α β) where
  toAgree := .const rfl
  result_eq := rfl
  result_of_unreported _ := rfl

/-- A node that is too deep stays as it is, with a report. -/
theorem Walked.Agree.tooDeep (n : Node) (ctx : Context α) :
    Walked.Agree fun p =>
      (⟨n, ((ctx.under p).report n n.outline .tooDeep).bind fun _ => pure ()⟩ :
        Walked α Node) where
  toAgree := (Run.Agree.report ctx n n.outline .tooDeep).bind fun _ => .const rfl
  result_eq := rfl
  result_of_unreported _ := rfl

theorem Walked.Agree.branch (h : Node.Head) {walked : Policy → Walked α (List Node)}
    (hwalked : Walked.Agree walked) :
    Walked.Agree fun p => (⟨.branch h (walked p).result, (walked p).run⟩ : Walked α Node) where
  toAgree := hwalked.toAgree
  result_eq := congrArg (Node.branch h) hwalked.result_eq
  result_of_unreported hd := congrArg (Node.branch h) (hwalked.result_of_unreported hd)

variable [Scalar α] [LightCurve α]

theorem replaceCall_agree (call : Node) (ctx : Context α) :
    Run.Agree fun p => replaceCall call (ctx.under p) := by
  refine (resolveColorMod_agree call ctx).bind fun resolved => ?_
  cases resolved with
  | ok c =>
    change Run.Agree fun _ =>
      ofArithmetic (c.toCss ctx.format) >>= fun text =>
        tell (.replaced call text) >>= fun _ => pure (Node.word text)
    exact .const (diagnostics_bind_eq_nil rfl fun _ => rfl)
  | error u => exact .const rfl

theorem walkCall_agree (call : Node) (ctx : Context α) :
    Walked.Agree fun p => walkCall call (ctx.under p) where
  toAgree := (replaceCall_agree call ctx).bind fun _ => .const rfl
  result_eq := by rw [walkCall, walkCall, (replaceCall_agree call ctx).outcome_eq]
  result_of_unreported h := by
    have hd : (replaceCall call (ctx.under .warn)).diagnostics = [] := by
      rw [walkCall, bind_def] at h
      cases hw : (replaceCall call (ctx.under .warn)).outcome with
      | ok n => exact (List.append_eq_nil_iff.mp ((diagnostics_bind_of_ok hw).symm.trans h)).1
      | error e => exact (diagnostics_bind_of_error hw).symm.trans h
    rw [walkCall, walkCall, (replaceCall_agree call ctx).unreported hd]

mutual

theorem walk_agree : ∀ (n : Node) (ctx : Context α), Walked.Agree fun p => walk n (ctx.under p)
  | .leaf h, ctx => by
    simp only [walk, Context.under_tooDeep]
    by_cases hdeep : ctx.tooDeep = true
    · simpa only [hdeep, if_true] using .tooDeep _ ctx
    · simpa only [hdeep] using .const _
  | .branch h cs, ctx => by
    simp only [walk, Context.under_tooDeep]
    by_cases hdeep : ctx.tooDeep = true
    · simpa only [hdeep, if_true] using .tooDeep _ ctx
    · simp only [hdeep]
      exact (walkAll_agree cs ctx).branch h

theorem walkAll_agree : ∀ (ns : List Node) (ctx : Context α),
    Walked.Agree fun p => walkAll ns (ctx.under p)
  | [], ctx => .const _
  | c :: cs, ctx => by
    simp only [walkAll, Context.under_descend]
    refine .cons cs ?_ (walkAll_agree cs ctx)
    split
    · exact walkCall_agree c ctx
    · split
      · exact .const c
      · exact walk_agree c ctx.descend

end

/-- Unless complaints are raised, a walk ends like the one under `warn`, with the same tree. -/
theorem walk_eq_warn (n : Node) {ctx : Context α} (hpolicy : ctx.policy ≠ .raise) :
    (walk n ctx).run.outcome = (walk n (ctx.under .warn)).run.outcome ∧
      (walk n ctx).result = (walk n (ctx.under .warn)).result := by
  have hself : walk n ctx = walk n (ctx.under ctx.policy) := rfl
  rw [hself]
  cases hp : ctx.policy with
  | raise => exact absurd hp hpolicy
  | warn => exact ⟨rfl, rfl⟩
  | ignore => exact ⟨(walk_agree n ctx).outcome_eq, (walk_agree n ctx).result_eq⟩

/-- The three policies agree up to the first report: on any tree, `ignore` and `warn` leave the same
tree and end alike, `raise` does the same when `warn` notes nothing, and `raise` ends with the first
diagnostic that `warn` notes.  Under `warn` a value that is no color is the last diagnostic. -/
theorem walk_policies_agree (tree : Node) (ctx : Context α) :
    let walked : Policy → Walked α Node := fun p => walk tree (ctx.under p)
    ((walked .ignore).result = (walked .warn).result ∧
      (walked .ignore).run.outcome = (walked .warn).run.outcome) ∧
    ((walked .warn).run.diagnostics = [] →
      (walked .raise).run.outcome = (walked .warn).run.outcome ∧
      (walked .raise).result = (walked .warn).result) ∧
    (∀ d ds, (walked .warn).run.diagnostics = d :: ds →
      ∃ u, (walked .raise).run.outcome = .error (.unresolved u) ∧ u.toDiagnostic = d) ∧
    (∀ node, ReportsLast (resolveColor node (ctx.under .warn))) ∧
    (∀ node, ReportsLast (resolveColorMod node (ctx.under .warn))) ∧
    (∀ node c, ReportsLast (applyAdjuster c node (ctx.under .warn))) := by
  have h := walk_agree tree ctx
  exact ⟨⟨h.result_eq, h.outcome_eq⟩, fun hd => ⟨h.unreported hd, h.result_of_unreported hd⟩,
    h.reported, fun node => resolveColor_reportsLast node ctx,
    fun node => resolveColorMod_reportsLast node ctx,
    fun node c => (applyAdjuster_reports node ctx c).last⟩

end ColorMod
