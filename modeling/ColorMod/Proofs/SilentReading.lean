import ColorMod.Proofs.Policies

/-!
# Reading arguments is silent

A run of the resolver is put together from a few parts: values, arithmetic, hints and reports.  So a
property that these have, and that passes to a run from its parts, holds of all that a node means
(`Run.Invariant`, `Run.Invariant.meaning`).

* `Run.silent_invariant`: under `ignore` nothing is noted and no complaint ends a run.
* `Run.unraised_invariant`: only under `raise` a complaint ends a run.

Arguments are read under `ignore` whatever the policy is, so reading them is silent, with any colors
and calls in them (`Pattern.firstOf_never_reports`).
-/

namespace ColorMod

variable {α β : Type} [Scalar α]

/-! ## Properties of all runs -/

/-- A property of the runs in contexts of a kind: the parts that runs are made of have it, and a run
that goes on with another has it when both have. -/
structure Run.Invariant (Admits : Context α → Prop) (Holds : (β : Type) → Run α β → Prop) :
    Prop where
  pure : ∀ {β : Type} (b : β), Holds β (pure b)
  bind : ∀ {β γ : Type} {x : Run α β} {f : β → Run α γ},
    Holds β x → (∀ b, Holds γ (f b)) → Holds γ (x >>= f)
  tell : ∀ event, Holds Unit (Run.tell event)
  ofArithmetic : ∀ {β : Type} (x : Except ArithmeticFault β), Holds β (Run.ofArithmetic x)
  hint : ∀ {ctx}, Admits ctx → ∀ name choices, Holds _ (ctx.hint name choices)
  report : ∀ {ctx}, Admits ctx → ∀ node word complaint, Holds _ (ctx.report node word complaint)
  descend : ∀ {ctx}, Admits ctx → Admits ctx.descend
  quiet : ∀ {ctx}, Admits ctx → Admits ctx.quiet

/-- What an argument means has the property. -/
structure Argument.Keeps (Admits : Context α → Prop) (Holds : (β : Type) → Run α β → Prop)
    (arg : Argument α) : Prop where
  color : ∀ {ctx}, Admits ctx → Holds _ (arg.color ctx)
  adjust : ∀ {ctx}, Admits ctx → ∀ c, Holds _ (arg.adjust c ctx)

namespace Run.Invariant

variable {Admits : Context α → Prop} {Holds : (β : Type) → Run α β → Prop}
  (inv : Run.Invariant Admits Holds) {ctx : Context α} (hctx : Admits ctx) (node : Node)
  {args : List (Argument α)} (hargs : ∀ arg ∈ args, arg.Keeps Admits Holds)

include inv

include hctx in
theorem reject (word : String) (complaint : Complaint) :
    Holds _ (ctx.reject node word complaint) :=
  inv.bind (inv.report hctx node word complaint) fun _ => inv.pure _

/-! ### Patterns -/

include hctx in
theorem resolveHex : Holds _ (Component.resolveHex node ctx) := by
  unfold Component.resolveHex
  split
  · exact inv.pure _
  · exact inv.reject hctx ..

include hctx in
theorem read (component : Component) {arg : Argument α} (harg : arg.Keeps Admits Holds) :
    Holds _ (component.read arg ctx) := by
  cases component with
  | color => exact inv.bind (harg.color (inv.descend hctx)) fun _ => inv.pure _
  | hexColor => exact inv.bind (inv.resolveHex hctx arg.node) fun _ => inv.pure _
  | _ => exact inv.pure _

include hctx hargs in
theorem readAll (pattern : Pattern) : Holds _ (Pattern.readAll ctx pattern args) := by
  induction pattern generalizing args with
  | nil => cases args <;> exact inv.pure _
  | cons component pattern ih =>
    cases args with
    | nil => exact inv.pure _
    | cons arg args =>
      obtain ⟨harg, hargs⟩ := List.forall_mem_cons.mp hargs
      refine inv.bind (inv.read hctx component harg) fun reading => ?_
      cases reading with
      | unfit => exact inv.pure _
      | separator => exact ih hargs
      | found value => exact inv.bind (ih hargs) fun _ => inv.pure _

include hargs in
/-- Patterns are tried in the quiet context. -/
theorem firstOf (hquiet : Admits ctx.quiet) (patterns : List Pattern) :
    Holds _ (Pattern.firstOf patterns args ctx) := by
  induction patterns with
  | nil => exact inv.pure _
  | cons pattern patterns ih =>
    refine inv.bind ?_ fun values => ?_
    · unfold Pattern.matches?
      split
      · exact inv.readAll hquiet hargs pattern
      · exact inv.pure _
    · cases values with
      | none => exact ih
      | some values => exact inv.pure _

/-! ### Adjusters and colors -/

include hctx in
theorem unknownName (written fullName : String) :
    Holds _ (Adjuster.unknownName written fullName ctx) := by
  unfold Adjuster.unknownName
  split
  · exact inv.pure _
  · exact inv.bind (inv.hint hctx ..) fun _ => inv.pure _

include hctx in
theorem unfit (adjuster : Adjuster) (fullName : String) (args : List (Argument α)) :
    Holds _ (Adjuster.unfit node adjuster fullName args ctx) := by
  unfold Adjuster.unfit
  split
  · exact inv.bind (inv.hint hctx ..) fun _ => inv.reject hctx ..
  · exact inv.reject hctx ..

include hctx hargs in
theorem applyNode [LightCurve α] (c : Color α) :
    Holds _ (Adjuster.applyNode node args c ctx) := by
  unfold Adjuster.applyNode
  split
  · dsimp only
    split
    · exact inv.bind (inv.unknownName hctx ..) fun _ => inv.reject hctx ..
    · next adjuster _ =>
      refine inv.bind (inv.firstOf hargs (inv.quiet hctx) adjuster.patterns) fun values => ?_
      cases values with
      | none => exact inv.unfit hctx ..
      | some values =>
        refine inv.bind (inv.ofArithmetic _) fun changed => ?_
        cases changed with
        | some adjusted => exact inv.pure _
        | none => exact inv.unfit hctx ..
  · exact inv.reject hctx ..

include hctx hargs in
theorem applyAll (c : Color α) : Holds _ (Adjuster.applyAll ctx c args) := by
  induction args generalizing c with
  | nil => exact inv.pure _
  | cons arg args ih =>
    obtain ⟨harg, hargs⟩ := List.forall_mem_cons.mp hargs
    refine inv.bind (harg.adjust hctx c) fun resolved => ?_
    cases resolved with
    | ok adjusted => exact inv.bind (inv.tell _) fun _ => ih hargs adjusted
    | error u => exact inv.bind (inv.tell _) fun _ => ih hargs c

include hctx hargs in
theorem resolveFunction (space : ColorSpace) :
    Holds _ (ColorMod.resolveFunction space node args ctx) := by
  refine inv.bind (inv.firstOf hargs (inv.quiet hctx) space.patterns) fun values => ?_
  split
  · exact inv.pure _
  · exact inv.reject hctx ..

include hctx in
theorem resolveSeed {arg : Argument α} (harg : arg.Keeps Admits Holds) :
    Holds _ (ColorMod.resolveSeed arg ctx) := by
  unfold ColorMod.resolveSeed
  split
  · split
    · exact inv.pure _
    · exact inv.reject hctx ..
  · exact harg.color hctx

include hctx hargs in
theorem resolveCall : Holds _ (ColorMod.resolveCall node args ctx) := by
  unfold ColorMod.resolveCall
  split
  · exact inv.reject hctx ..
  · cases args with
    | nil => exact inv.reject hctx ..
    | cons seed adjusters =>
      obtain ⟨hseed, hadjusters⟩ := List.forall_mem_cons.mp hargs
      refine inv.bind (inv.resolveSeed (inv.descend hctx) hseed) fun resolved => ?_
      cases resolved with
      | error u => exact inv.reject hctx ..
      | ok c =>
        refine inv.bind (inv.tell _) fun _ => ?_
        exact inv.bind (inv.applyAll (inv.descend hctx) hadjusters c) fun _ => inv.pure _

include hctx in
theorem resolveWord : Holds _ (ColorMod.resolveWord node ctx) := by
  unfold ColorMod.resolveWord
  split
  · exact inv.resolveHex hctx node
  · split
    · exact inv.pure _
    · exact inv.reject hctx ..

include hctx hargs in
theorem resolveNode : Holds _ (ColorMod.resolveNode node args ctx) := by
  unfold ColorMod.resolveNode
  split
  · exact inv.reject hctx ..
  · split
    · unfold resolveNamedFunction
      repeat' split
      · exact inv.resolveFunction hctx node hargs .rgb
      · exact inv.resolveFunction hctx node hargs .hsl
      · exact inv.resolveFunction hctx node hargs .hwb
      · exact inv.resolveCall hctx node hargs
      · exact inv.reject hctx ..
    · exact inv.resolveWord hctx node
    · exact inv.reject hctx ..

/-- The property holds of all that a node means. -/
theorem meaning [LightCurve α] (n : Node) : (ColorMod.meaning n).Keeps Admits Holds := by
  induction n using Node.induction_on_arguments with
  | step n ih =>
    have hargs : ∀ arg ∈ n.arguments.map (ColorMod.meaning (α := α)), arg.Keeps Admits Holds :=
      List.forall_mem_map.mpr ih
    refine ⟨fun hctx => ?_, fun hctx c => ?_⟩
    · simpa only [← resolveColor_eq, resolveColor] using inv.resolveNode hctx n hargs
    · simpa only [← applyAdjuster_eq, applyAdjuster] using inv.applyNode hctx n hargs c

theorem arguments [LightCurve α] (n : Node) :
    ∀ arg ∈ (argumentMeanings n : List (Argument α)), arg.Keeps Admits Holds := by
  rw [argumentMeanings_eq]
  exact List.forall_mem_map.mpr fun m _ => inv.meaning m

end Run.Invariant

/-! ## Silence -/

namespace Run

/-- No complaint ends the run. -/
def Unraised (x : Run α β) : Prop :=
  ∀ u, x.outcome ≠ .error (.unresolved u)

/-- The run notes nothing, and no complaint ends it. -/
structure Silent (x : Run α β) : Prop where
  diagnostics_eq : x.diagnostics = []
  unraised : x.Unraised

omit [Scalar α] in
theorem Unraised.bind {γ : Type} {x : Run α β} {f : β → Run α γ} (hx : x.Unraised)
    (hf : ∀ b, (f b).Unraised) : (x >>= f).Unraised := by
  intro u h
  rcases outcome_bind_eq_error_iff.mp h with h | ⟨b, -, h⟩
  · exact hx u h
  · exact hf b u h

omit [Scalar α] in
theorem unraised_ofArithmetic (x : Except ArithmeticFault β) :
    (ofArithmetic x : Run α β).Unraised := by
  intro u h
  cases x <;> cases h

theorem unraised_hint (ctx : Context α) (name : String) (choices : List String) :
    (ctx.hint name choices).Unraised := by
  intro u h
  unfold Context.hint at h
  cases hsuggest : suggest name choices ctx.cutoff <;> rw [hsuggest] at h <;> cases h

omit [Scalar α] in
theorem unraised_report {ctx : Context α} (hpolicy : ctx.policy ≠ .raise) (node : Node)
    (word : String) (complaint : Complaint) : (ctx.report node word complaint).Unraised := by
  intro u h
  unfold Context.report at h
  split at h
  · cases h
  · cases h
  · next hraise => exact hpolicy hraise

/-- Unless complaints are raised, none ends a run. -/
theorem unraised_invariant :
    Invariant (α := α) (fun ctx => ctx.policy ≠ .raise) fun _ x => x.Unraised where
  pure _ _ h := by cases h
  bind := Unraised.bind
  tell _ _ h := by cases h
  ofArithmetic := unraised_ofArithmetic
  hint {ctx} _ := unraised_hint ctx
  report := unraised_report
  descend h := h
  quiet _ h := by cases h

/-- Where complaints are ignored, runs are silent. -/
theorem silent_invariant :
    Invariant (α := α) (fun ctx => ctx.policy = .ignore) fun _ x => x.Silent where
  pure _ := ⟨rfl, fun _ h => by cases h⟩
  bind hx hf :=
    ⟨diagnostics_bind_eq_nil hx.diagnostics_eq fun b => (hf b).diagnostics_eq,
      hx.unraised.bind fun b => (hf b).unraised⟩
  tell _ := ⟨rfl, fun _ h => by cases h⟩
  ofArithmetic x := ⟨rfl, unraised_ofArithmetic x⟩
  hint {ctx} _ name choices := ⟨rfl, unraised_hint ctx name choices⟩
  report {ctx} hpolicy node word complaint := by
    refine ⟨?_, unraised_report (by rw [hpolicy]; decide) node word complaint⟩
    unfold Context.report
    rw [hpolicy]
    rfl
  descend h := h
  quiet _ := rfl

end Run

/-- Reading the arguments of a node is silent. -/
theorem Pattern.silent_firstOf [LightCurve α] (patterns : List Pattern) (node : Node)
    (ctx : Context α) : (firstOf patterns (argumentMeanings node) ctx).Silent :=
  Run.silent_invariant.firstOf (Run.silent_invariant.arguments node) rfl patterns

/-- To read arguments notes nothing and raises no complaint, whatever is nested in them, and goes
the same way under each policy.  This holds of any nodes and of the arguments of any node. -/
theorem Pattern.firstOf_never_reports [LightCurve α] (patterns : List Pattern) (ctx : Context α) :
    (∀ nodes : List Node, (firstOf patterns (meanings nodes) ctx).Silent ∧
      ∀ p, firstOf patterns (meanings nodes) (ctx.under p) =
        firstOf patterns (meanings nodes) ctx) ∧
    ∀ node : Node, (firstOf patterns (argumentMeanings node) ctx).Silent ∧
      ∀ p, firstOf patterns (argumentMeanings node) (ctx.under p) =
        firstOf patterns (argumentMeanings node) ctx := by
  have hsilent := Run.silent_invariant (α := α)
  refine ⟨fun nodes => ⟨?_, fun p => firstOf_under ctx p patterns⟩,
    fun node => ⟨?_, fun p => firstOf_under ctx p patterns⟩⟩
  · refine hsilent.firstOf ?_ rfl patterns
    rw [meanings_eq_map]
    exact List.forall_mem_map.mpr fun n _ => hsilent.meaning n
  · exact silent_firstOf patterns node ctx

end ColorMod
