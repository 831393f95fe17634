import ColorMod.Walk
import ColorMod.Proofs.Policies

/-!
# The report behind a value

Under `warn` a node that is no color leaves its own complaint in the log.

* `Run.ReportsOnly`: nothing is noted for a color, and the complaint alone for no color.  This
  holds of every color but a `color-mod`, and of adjusters, since arguments are read quietly.
* `Run.ReportsLast`: the complaint is the last diagnostic.  This holds of every node; a `color-mod`
  may note the complaints about its arguments before its own.
-/

namespace ColorMod

open Run

variable {α β : Type}

/-- Nothing is noted for a color, and the complaint alone for what is none. -/
structure Run.ReportsOnly (x : Run α (Resolution α)) : Prop where
  of_ok : ∀ c, x.outcome = .ok (.ok c) → x.diagnostics = []
  of_error : ∀ u, x.outcome = .ok (.error u) → x.diagnostics = [u.toDiagnostic]

/-- What is no color comes with its own complaint as the last diagnostic. -/
structure Run.ReportsLast (x : Run α (Resolution α)) : Prop where
  getLast?_eq : ∀ u, x.outcome = .ok (.error u) → x.diagnostics.getLast? = some u.toDiagnostic

namespace Run

theorem ReportsOnly.ok (c : Color α) : ReportsOnly (pure (.ok c)) where
  of_ok _ _ := rfl
  of_error u h := by cases h

theorem ReportsOnly.reject (ctx : Context α) (node : Node) (word : String) (complaint : Complaint) :
    ReportsOnly ((ctx.under .warn).reject node word complaint) where
  of_ok c h := by cases h
  of_error u h := by cases h; rfl

theorem ReportsOnly.bind {x : Run α β} {f : β → Run α (Resolution α)} (hx : x.diagnostics = [])
    (hf : ∀ b, ReportsOnly (f b)) : ReportsOnly (x >>= f) where
  of_ok c h := by
    obtain ⟨b, hb, hc⟩ := outcome_bind_eq_ok_iff.mp h
    rw [diagnostics_bind_of_ok hb, hx, (hf b).of_ok c hc]; rfl
  of_error u h := by
    obtain ⟨b, hb, hu⟩ := outcome_bind_eq_ok_iff.mp h
    rw [diagnostics_bind_of_ok hb, hx, (hf b).of_error u hu]; rfl

theorem ReportsOnly.last {x : Run α (Resolution α)} (hx : ReportsOnly x) : ReportsLast x where
  getLast?_eq u h := by rw [hx.of_error u h]; rfl

/-- Whatever is noted before, the last report is the one of the last part. -/
theorem ReportsLast.bind {x : Run α β} {f : β → Run α (Resolution α)}
    (hf : ∀ b, ReportsLast (f b)) : ReportsLast (x >>= f) where
  getLast?_eq u h := by
    obtain ⟨b, hb, hu⟩ := outcome_bind_eq_ok_iff.mp h
    rw [diagnostics_bind_of_ok hb, List.getLast?_append, (hf b).getLast?_eq u hu, Option.some_or]

end Run

variable [Scalar α] {args : List (Argument α)} (node : Node) (ctx : Context α)

/-! ## Functions, words and adjusters -/

theorem resolveHex_reports : ReportsOnly (Component.resolveHex node (ctx.under .warn)) := by
  unfold Component.resolveHex
  split
  · exact .ok _
  · exact .reject ..

theorem resolveFunction_reports (space : ColorSpace) (hargs : ∀ arg ∈ args, arg.Agree) :
    ReportsOnly (resolveFunction space node args (ctx.under .warn)) := by
  refine .bind (Pattern.firstOf_silent _ space.patterns hargs) fun values => ?_
  split
  · exact .ok _
  · exact .reject ..

theorem resolveWord_reports : ReportsOnly (resolveWord node (ctx.under .warn)) := by
  unfold resolveWord
  split
  · exact resolveHex_reports ..
  · split
    · exact .ok _
    · exact .reject ..

theorem Adjuster.unfit_reports (adjuster : Adjuster) (fullName : String) :
    ReportsOnly (Adjuster.unfit node adjuster fullName args (ctx.under .warn)) := by
  unfold Adjuster.unfit
  split
  · exact .bind rfl fun _ => .reject ..
  · exact .reject ..

theorem Adjuster.unknownName_silent (written fullName : String) :
    (Adjuster.unknownName written fullName ctx).diagnostics = [] := by
  unfold Adjuster.unknownName
  split
  · rfl
  · exact diagnostics_bind_eq_nil rfl fun _ => rfl

theorem Adjuster.applyNode_reports [LightCurve α] (c : Color α)
    (hargs : ∀ arg ∈ args, arg.Agree) :
    ReportsOnly (Adjuster.applyNode node args c (ctx.under .warn)) := by
  unfold Adjuster.applyNode
  split
  · dsimp only
    split
    · exact .bind (Adjuster.unknownName_silent ..) fun _ => .reject ..
    · refine .bind (Pattern.firstOf_silent _ _ hargs) fun values => ?_
      split
      · exact Adjuster.unfit_reports ..
      · refine .bind rfl fun changed => ?_
        split
        · exact .ok _
        · exact Adjuster.unfit_reports ..
  · exact .reject ..

/-! ## Calls and nodes -/

theorem resolveCall_reportsLast : ReportsLast (resolveCall node args (ctx.under .warn)) := by
  unfold resolveCall
  split
  · exact (ReportsOnly.reject ..).last
  · split
    · exact (ReportsOnly.reject ..).last
    · refine .bind fun resolved => ?_
      split
      · exact .bind fun _ => .bind fun _ => (ReportsOnly.ok _).last
      · exact (ReportsOnly.reject ..).last

omit [Scalar α] in
theorem Node.isCall_iff : node.isCall ↔ node.kind = .function ∧ node.name = colorModName := by
  simp [Node.isCall, Node.isFunctionNamed, Node.isFunction]

/-- A call is resolved as a call, whatever else it could be. -/
theorem resolveNode_of_isCall (hcall : node.isCall) :
    resolveNode node args ctx = resolveCall node args ctx := by
  obtain ⟨hkind, hname⟩ := (Node.isCall_iff node).mp hcall
  unfold resolveNode
  split
  · next hdepth =>
    unfold resolveCall
    rw [if_pos hdepth]
  · simp [hkind, resolveNamedFunction, hname, colorModName]

theorem resolveNamedFunction_reports (hname : node.name ≠ colorModName)
    (hargs : ∀ arg ∈ args, arg.Agree) :
    ReportsOnly (resolveNamedFunction node args (ctx.under .warn)) := by
  rw [resolveNamedFunction, if_neg hname]
  repeat' split
  · exact resolveFunction_reports node ctx .rgb hargs
  · exact resolveFunction_reports node ctx .hsl hargs
  · exact resolveFunction_reports node ctx .hwb hargs
  · exact .reject ..

theorem resolveNode_reports (hcall : ¬node.isCall) (hargs : ∀ arg ∈ args, arg.Agree) :
    ReportsOnly (resolveNode node args (ctx.under .warn)) := by
  unfold resolveNode
  split
  · exact .reject ..
  · split
    · next hkind =>
      have hname : node.name ≠ colorModName := by
        intro h
        exact hcall ((Node.isCall_iff node).mpr ⟨hkind, h⟩)
      exact resolveNamedFunction_reports node ctx hname hargs
    · exact resolveWord_reports node ctx
    · exact .reject ..

theorem resolveNode_reportsLast (hargs : ∀ arg ∈ args, arg.Agree) :
    ReportsLast (resolveNode node args (ctx.under .warn)) := by
  by_cases hcall : node.isCall
  · rw [resolveNode_of_isCall _ _ hcall]
    exact resolveCall_reportsLast node ctx
  · exact (resolveNode_reports node ctx hcall hargs).last

/-! ## The meaning of a node -/

variable [LightCurve α]

theorem arguments_agree : ∀ arg ∈ node.arguments.map (meaning (α := α)), arg.Agree :=
  List.forall_mem_map.mpr fun n _ => meaning_agree n

theorem resolveColorMod_agree : Run.Agree fun p => resolveColorMod node (ctx.under p) := by
  simp only [resolveColorMod_eq]
  exact resolveCall_agree node ctx (arguments_agree node)

theorem resolveColor_of_isCall (hcall : node.isCall) :
    (resolveColor node ctx : Run α (Resolution α)) = resolveColorMod node ctx := by
  rw [resolveColor_eq, resolveColorMod_eq, resolveNode_of_isCall _ _ hcall]

theorem resolveColor_reports (hcall : ¬node.isCall) :
    ReportsOnly (resolveColor node (ctx.under .warn)) := by
  rw [resolveColor_eq]
  exact resolveNode_reports node ctx hcall (arguments_agree node)

theorem resolveColor_reportsLast : ReportsLast (resolveColor node (ctx.under .warn)) := by
  rw [resolveColor_eq]
  exact resolveNode_reportsLast node ctx (arguments_agree node)

theorem resolveColorMod_reportsLast : ReportsLast (resolveColorMod node (ctx.under .warn)) := by
  rw [resolveColorMod_eq]
  exact resolveCall_reportsLast node ctx

theorem applyAdjuster_reports (c : Color α) :
    ReportsOnly (applyAdjuster c node (ctx.under .warn)) := by
  rw [applyAdjuster_eq]
  exact Adjuster.applyNode_reports node ctx c (arguments_agree node)

end ColorMod
