import ColorMod.Proofs.Meanings
import ColorMod.Proofs.Runs

/-!
# The three policies agree up to the first report

A policy decides what happens to a complaint and nothing else.  So one computation under the three
policies (`Run.Agree`)

* ends alike under `ignore` and `warn`, and notes nothing under `ignore`;
* ends under `raise` as under `warn` when nothing is noted there;
* ends under `raise` with the first diagnostic of `warn` when something is noted.

This holds of a report, of a run whatever the policy is, and of one agreeing run after another;
reading arguments is such a run because it is done quietly.  It passes from the arguments of a node
to the node (`meaning_agree`).
-/

namespace ColorMod

variable {α β γ : Type}

/-! ## Contexts that differ in their policy -/

namespace Context

/-- The same context with another policy. -/
def under (ctx : Context α) (policy : Policy) : Context α :=
  { ctx with policy }

@[simp] theorem under_quiet (ctx : Context α) (p : Policy) : (ctx.under p).quiet = ctx.quiet := rfl

theorem under_ignore (ctx : Context α) : ctx.under .ignore = ctx.quiet := rfl

@[simp] theorem under_descend (ctx : Context α) (p : Policy) :
    (ctx.under p).descend = ctx.descend.under p := rfl

@[simp] theorem under_tooDeep (ctx : Context α) (p : Policy) :
    (ctx.under p).tooDeep = ctx.tooDeep := rfl

@[simp] theorem under_hint [Scalar α] (ctx : Context α) (p : Policy) :
    (ctx.under p).hint = ctx.hint := rfl

end Context

/-! ## Agreement -/

namespace Run

/-- One computation under each policy: `ignore` and `warn` end alike, and `raise` ends like `warn`
or with the first diagnostic of `warn`. -/
structure Agree (run : Policy → Run α β) : Prop where
  outcome_eq : (run .ignore).outcome = (run .warn).outcome
  silent : (run .ignore).diagnostics = []
  unreported : (run .warn).diagnostics = [] → (run .raise).outcome = (run .warn).outcome
  reported : ∀ d ds, (run .warn).diagnostics = d :: ds →
    ∃ u, (run .raise).outcome = .error (.unresolved u) ∧ u.toDiagnostic = d

namespace Agree

/-- A run that does not look at the policy and notes nothing. -/
theorem const {x : Run α β} (h : x.diagnostics = []) : Agree fun _ => x where
  outcome_eq := rfl
  silent := h
  unreported _ := rfl
  reported d ds hd := by rw [h] at hd; cases hd

theorem report (ctx : Context α) (node : Node) (word : String) (complaint : Complaint) :
    Agree fun p => (ctx.under p).report node word complaint where
  outcome_eq := rfl
  silent := rfl
  unreported h := by cases h
  reported d ds h := by cases h; exact ⟨_, rfl, rfl⟩

theorem bind {x : Policy → Run α β} {f : Policy → β → Run α γ} (hx : Agree x)
    (hf : ∀ b, Agree fun p => f p b) : Agree fun p => x p >>= f p := by
  cases hw : (x .warn).outcome with
  | error e =>
    -- the first part fails under `warn`, so its log is the whole log
    have hi : (x .ignore).outcome = .error e := hx.outcome_eq.trans hw
    have hd := diagnostics_bind_of_error (f := f .warn) hw
    refine ⟨?_, ?_, fun h => ?_, fun d ds h => ?_⟩
    · rw [outcome_bind_of_error hi, outcome_bind_of_error hw]
    · rw [diagnostics_bind_of_error hi, hx.silent]
    · rw [hd] at h
      rw [outcome_bind_of_error ((hx.unreported h).trans hw), outcome_bind_of_error hw]
    · rw [hd] at h
      obtain ⟨u, hu, hud⟩ := hx.reported d ds h
      exact ⟨u, outcome_bind_of_error hu, hud⟩
  | ok b =>
    have hi : (x .ignore).outcome = .ok b := hx.outcome_eq.trans hw
    have hd := diagnostics_bind_of_ok (f := f .warn) hw
    refine ⟨?_, ?_, fun h => ?_, fun d ds h => ?_⟩
    · rw [outcome_bind_of_ok hi, outcome_bind_of_ok hw]
      exact (hf b).outcome_eq
    · rw [diagnostics_bind_of_ok hi, hx.silent, (hf b).silent]; rfl
    · rw [hd, List.append_eq_nil_iff] at h
      rw [outcome_bind_of_ok ((hx.unreported h.1).trans hw), outcome_bind_of_ok hw]
      exact (hf b).unreported h.2
    · -- the first diagnostic is one of the first part, unless that part noted nothing
      cases hxd : (x .warn).diagnostics with
      | nil =>
        rw [hd, hxd, List.nil_append] at h
        obtain ⟨u, hu, hud⟩ := (hf b).reported d ds h
        exact ⟨u, (outcome_bind_of_ok ((hx.unreported hxd).trans hw)).trans hu, hud⟩
      | cons d' ds' =>
        rw [hd, hxd, List.cons_append, List.cons.injEq] at h
        obtain ⟨u, hu, hud⟩ := hx.reported d' ds' hxd
        exact ⟨u, outcome_bind_of_error hu, hud.trans h.1⟩

theorem ite {c : Prop} [Decidable c] {x y : Policy → Run α β} (hx : c → Agree x)
    (hy : ¬c → Agree y) : Agree fun p => if c then x p else y p := by
  by_cases h : c
  · simpa only [h, if_true] using hx h
  · simpa only [h, if_false] using hy h

theorem reject (ctx : Context α) (node : Node) (word : String) (complaint : Complaint) :
    Agree fun p => (ctx.under p).reject node word complaint :=
  (report ctx node word complaint).bind fun _ => const rfl

end Agree

end Run

open Run

variable [Scalar α]

/-! ## Reading arguments -/

/-- An argument means the same under each policy, up to reports. -/
structure Argument.Agree (arg : Argument α) : Prop where
  color : ∀ ctx : Context α, Run.Agree fun p => arg.color (ctx.under p)
  adjust : ∀ (c : Color α) (ctx : Context α), Run.Agree fun p => arg.adjust c (ctx.under p)

section

variable {args : List (Argument α)}

theorem Component.read_silent (component : Component) {arg : Argument α} (harg : arg.Agree)
    (ctx : Context α) : (component.read arg ctx.quiet).diagnostics = [] := by
  cases component with
  | color => exact diagnostics_bind_eq_nil (harg.color ctx.descend).silent fun _ => rfl
  | hexColor =>
    refine diagnostics_bind_eq_nil ?_ fun _ => rfl
    unfold Component.resolveHex
    split <;> rfl
  | _ => rfl

theorem Pattern.readAll_silent (ctx : Context α) (pattern : Pattern)
    (hargs : ∀ arg ∈ args, arg.Agree) :
    (Pattern.readAll ctx.quiet pattern args).diagnostics = [] := by
  induction pattern generalizing args with
  | nil => cases args <;> rfl
  | cons component pattern ih =>
    cases args with
    | nil => rfl
    | cons arg args =>
      obtain ⟨harg, hargs⟩ := List.forall_mem_cons.mp hargs
      refine diagnostics_bind_eq_nil (component.read_silent harg ctx) fun reading => ?_
      cases reading with
      | unfit => rfl
      | separator => exact ih hargs
      | found value => exact diagnostics_bind_eq_nil (ih hargs) fun _ => rfl

theorem Pattern.firstOf_silent (ctx : Context α) (patterns : List Pattern)
    (hargs : ∀ arg ∈ args, arg.Agree) : (Pattern.firstOf patterns args ctx).diagnostics = [] := by
  induction patterns with
  | nil => rfl
  | cons pattern patterns ih =>
    refine diagnostics_bind_eq_nil ?_ fun values => ?_
    · unfold Pattern.matches?
      split
      · exact Pattern.readAll_silent ctx pattern hargs
      · rfl
    · cases values with
      | none => exact ih
      | some values => rfl

theorem Pattern.firstOf_under (ctx : Context α) (p : Policy) (patterns : List Pattern) :
    Pattern.firstOf patterns args (ctx.under p) = Pattern.firstOf patterns args ctx := by
  induction patterns with
  | nil => rfl
  | cons pattern patterns ih => simp only [Pattern.firstOf, Context.under_quiet, ih]

/-- Patterns are tried quietly, so the policy does not matter. -/
theorem Pattern.firstOf_agree (ctx : Context α) (patterns : List Pattern)
    (hargs : ∀ arg ∈ args, arg.Agree) :
    Run.Agree fun p => Pattern.firstOf patterns args (ctx.under p) := by
  simp only [Pattern.firstOf_under]
  exact .const (Pattern.firstOf_silent ctx patterns hargs)

/-! ## Adjusters and colors -/

theorem Adjuster.unfit_agree (node : Node) (adjuster : Adjuster) (fullName : String)
    (ctx : Context α) :
    Run.Agree fun p => Adjuster.unfit node adjuster fullName args (ctx.under p) := by
  unfold Adjuster.unfit
  cases Adjuster.unknownSpace? adjuster args with
  | none => exact .reject ctx _ _ _
  | some word =>
    simp only [Context.under_hint]
    exact (Agree.const rfl).bind fun _ => .reject ctx _ _ _

theorem Adjuster.unknownName_agree (written fullName : String) (ctx : Context α) :
    Run.Agree fun p => Adjuster.unknownName written fullName (ctx.under p) := by
  simp only [Adjuster.unknownName, Context.under_hint]
  refine .const ?_
  split
  · rfl
  · exact diagnostics_bind_eq_nil rfl fun _ => rfl

omit [Scalar α] in
theorem Adjuster.applyAll_agree (ctx : Context α) (c : Color α) (hargs : ∀ arg ∈ args, arg.Agree) :
    Run.Agree fun p => Adjuster.applyAll (ctx.under p) c args := by
  induction args generalizing c with
  | nil => exact .const rfl
  | cons arg args ih =>
    obtain ⟨harg, hargs⟩ := List.forall_mem_cons.mp hargs
    refine (harg.adjust c ctx).bind fun result => ?_
    cases result with
    | ok adjusted => exact (Agree.const rfl).bind fun _ => ih adjusted hargs
    | error u => exact (Agree.const rfl).bind fun _ => ih c hargs

theorem resolveHex_agree (node : Node) (ctx : Context α) :
    Run.Agree fun p => Component.resolveHex node (ctx.under p) := by
  unfold Component.resolveHex
  cases (if node.kind = .word then Hex.color? node.value else none : Option (Color α)) with
  | some c => exact .const rfl
  | none => exact .reject ctx _ _ _

theorem resolveFunction_agree (space : ColorSpace) (node : Node) (ctx : Context α)
    (hargs : ∀ arg ∈ args, arg.Agree) :
    Run.Agree fun p => resolveFunction space node args (ctx.under p) := by
  refine (Pattern.firstOf_agree ctx space.patterns hargs).bind fun values => ?_
  cases values.bind (Color.ofValues? space) with
  | some c => exact .const rfl
  | none => exact .reject ctx _ _ _

theorem resolveSeed_agree {arg : Argument α} (harg : arg.Agree) (ctx : Context α) :
    Run.Agree fun p => resolveSeed arg (ctx.under p) := by
  refine .ite (fun _ => ?_) fun _ => harg.color ctx
  cases (Component.hue? arg.node : Option α) with
  | some hue => exact .const rfl
  | none => exact .reject ctx _ _ _

theorem resolveCall_agree (node : Node) (ctx : Context α) (hargs : ∀ arg ∈ args, arg.Agree) :
    Run.Agree fun p => resolveCall node args (ctx.under p) := by
  simp only [resolveCall, Context.under_tooDeep, Context.under_descend]
  refine Agree.ite (c := ctx.tooDeep = true) (fun _ => .reject ctx _ _ _) fun _ => ?_
  cases args with
  | nil => exact .reject ctx _ _ _
  | cons seed adjusters =>
    obtain ⟨hseed, hadjusters⟩ := List.forall_mem_cons.mp hargs
    refine (resolveSeed_agree hseed ctx.descend).bind fun resolved => ?_
    cases resolved with
    | error u => exact .reject ctx _ _ _
    | ok c =>
      refine (Agree.const rfl).bind fun _ => ?_
      exact (Adjuster.applyAll_agree ctx.descend c hadjusters).bind fun _ => .const rfl

theorem resolveNamedFunction_agree (node : Node) (ctx : Context α)
    (hargs : ∀ arg ∈ args, arg.Agree) :
    Run.Agree fun p => resolveNamedFunction node args (ctx.under p) := by
  refine .ite (fun _ => resolveFunction_agree .rgb node ctx hargs) fun _ => ?_
  refine .ite (fun _ => resolveFunction_agree .hsl node ctx hargs) fun _ => ?_
  refine .ite (fun _ => resolveFunction_agree .hwb node ctx hargs) fun _ => ?_
  refine .ite (fun _ => resolveCall_agree node ctx hargs) fun _ => ?_
  exact .reject ctx _ _ _

theorem resolveWord_agree (node : Node) (ctx : Context α) :
    Run.Agree fun p => resolveWord node (ctx.under p) := by
  refine .ite (fun _ => resolveHex_agree node ctx) fun _ => ?_
  cases (Color.named? node : Option (Color α)) with
  | some c => exact .const rfl
  | none => exact .reject ctx _ _ _

theorem resolveNode_agree (node : Node) (ctx : Context α) (hargs : ∀ arg ∈ args, arg.Agree) :
    Run.Agree fun p => resolveNode node args (ctx.under p) := by
  simp only [resolveNode, Context.under_tooDeep]
  refine Agree.ite (c := ctx.tooDeep = true) (fun _ => .reject ctx _ _ _) fun _ => ?_
  cases node.kind with
  | function => exact resolveNamedFunction_agree node ctx hargs
  | word => exact resolveWord_agree node ctx
  | _ => exact .reject ctx _ _ _

variable [LightCurve α]

theorem Adjuster.applyNode_agree (node : Node) (c : Color α) (ctx : Context α)
    (hargs : ∀ arg ∈ args, arg.Agree) :
    Run.Agree fun p => Adjuster.applyNode node args c (ctx.under p) := by
  unfold Adjuster.applyNode
  refine .ite (fun _ => ?_) fun _ => .reject ctx _ _ _
  dsimp only
  cases Adjuster.ofName? (Adjuster.fullName node.value) with
  | none =>
    exact (Adjuster.unknownName_agree node.value _ ctx).bind fun complaint =>
      .reject ctx node node.value complaint
  | some adjuster =>
    refine (Pattern.firstOf_agree ctx adjuster.patterns hargs).bind fun values => ?_
    cases values with
    | none => exact Adjuster.unfit_agree node adjuster _ ctx
    | some values =>
      refine (Agree.const rfl).bind fun changed => ?_
      cases changed with
      | some adjusted => exact .const rfl
      | none => exact Adjuster.unfit_agree node adjuster _ ctx

end

variable [LightCurve α]

/-- What a node means is the same under each policy, up to reports. -/
theorem meaning_agree (n : Node) : (meaning n : Argument α).Agree := by
  induction n using Node.induction_on_arguments with
  | step n ih =>
    have hargs : ∀ arg ∈ n.arguments.map (meaning (α := α)), arg.Agree :=
      List.forall_mem_map.mpr ih
    refine ⟨fun ctx => ?_, fun c ctx => ?_⟩
    · simpa only [← resolveColor_eq, resolveColor] using resolveNode_agree n ctx hargs
    · simpa only [← applyAdjuster_eq, applyAdjuster] using Adjuster.applyNode_agree n c ctx hargs

end ColorMod
