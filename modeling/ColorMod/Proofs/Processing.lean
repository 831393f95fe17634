import ColorMod.Proofs.Expansion
import ColorMod.Proofs.Insertion
import ColorMod.Proofs.Positions

/-!
# What a run gives back

A run over declarations transforms each value on its own: the properties are those that were written
before the run, and no value sees what has become of another one, nor of an earlier run.

* `transformDeclaration_result`: a declaration is left with its value transformed, also when the run
  does not look at it.
* `process_eq_fresh`: a run adds to the diagnostics of its processor and does not read them.
* `process_transforms`: the declarations and the diagnostics after a run, in any order of the
  declarations that keeps that of the properties, and after any number of runs.
-/

namespace ColorMod

open Node Properties

/-! ## Values without calls -/

/-- A walk over a tree without calls below it changes nothing. -/
theorem result_walk_of_callsBelow_eq_nil {α : Type} [Scalar α] [LightCurve α] (n : Node) :
    ∀ ctx : Context α, n.callsBelow = [] → (walk n ctx).result = n := by
  induction n using Node.induction_on_children with
  | step n ih =>
    intro ctx hnone
    by_cases hdeep : ctx.tooDeep
    · rw [walk_of_tooDeep ctx n hdeep]
    cases n with
    | leaf h => rw [walk_leaf ctx h hdeep]
    | branch h cs =>
      rw [walk_branch ctx h cs hdeep, walkAll_eq_each]
      refine congrArg (Node.branch h) (Walked.each_result_eq_self fun c hc => ?_)
      have hcalls : (if c.isCall then [c] else c.callsBelow) = [] := by
        refine List.eq_nil_iff_forall_not_mem.mpr fun call hcall => ?_
        have hmem : call ∈ callsAmong cs := mem_callsAmong.mpr ⟨c, hc, hcall⟩
        rw [show callsAmong cs = [] from hnone] at hmem
        cases hmem
      by_cases hcall : c.isCall
      · rw [if_pos hcall] at hcalls
        cases hcalls
      · rw [if_neg hcall] at hcalls
        rw [walkChild, if_neg hcall]
        split
        · rfl
        · exact ih c hc ctx.descend hcalls

theorem result_transform_of_not_hasCall {α : Type} [Scalar α] [LightCurve α] {tree : Node}
    (h : ¬tree.hasCall) (ctx : Context α) (props : Properties) :
    (transform tree ctx props).result = tree := by
  have hnone : tree.callsBelow = [] := by simpa [hasCall] using h
  rw [transform, mapCalls_of_not_hasCall h, ite_self]
  exact result_walk_of_callsBelow_eq_nil tree ctx hnone

/-! ## The properties of a run -/

/-- The properties count in the order of their declarations; other declarations do not matter. -/
theorem Properties.collect_eq_of_filter_eq {ds ds' : List Declaration}
    (h : (ds'.filter fun d => isCustomProperty d.1) = ds.filter fun d => isCustomProperty d.1) :
    collect ds' = collect ds := by
  have hfilter : ∀ ds : List Declaration, collect ds =
      (ds.filter fun d => isCustomProperty d.1).foldl
        (fun (props : Properties) d => props.define d.1 d.2) [] := by
    intro ds
    rw [List.foldl_filter]
    rfl
  rw [hfilter, hfilter ds, h]

namespace Processor

/-- The properties that a run over declarations replaces variables by. -/
def properties (p : Processor) (ds : List Declaration) : Properties :=
  if p.replacesVariables then collect ds else []

/-- The value of a name is the one that it is declared with last, if variables are replaced. -/
theorem lookup_properties (p : Processor) (ds : List Declaration) (name : String) :
    (p.properties ds).lookup name =
      if p.replacesVariables ∧ isCustomProperty name then ds.reverse.lookup name else none := by
  unfold properties
  by_cases hvars : p.replacesVariables
  · simp [hvars, lookup_collect]
  · simp [hvars]

/-! ## One run -/

section

variable {p : Processor} {ctx : Context Float} {ds : List Declaration}

/-- A declaration is left with its value transformed. -/
theorem transformDeclaration_result (ctx : Context Float) (props : Properties) (d : Declaration) :
    (transformDeclaration ctx props d).result = (d.1, (transform d.2 ctx props).result) := by
  unfold transformDeclaration
  split
  · rfl
  · next h => rw [result_transform_of_not_hasCall h]

/-- Only what is done to a value with calls is noted. -/
theorem transformDeclaration_diagnostics (ctx : Context Float) (props : Properties)
    (d : Declaration) : (transformDeclaration ctx props d).run.diagnostics =
      if d.2.hasCall then (transform d.2 ctx props).run.diagnostics else [] := by
  unfold transformDeclaration
  split <;> rfl

theorem process_of_build (hctx : Context.build p.options.toChoices p.settings = .ok ctx)
    (ds : List Declaration) :
    p.process ds =
      let walked := Walked.each (transformDeclaration ctx (p.properties ds)) ds
      match walked.run.outcome with
      | .ok _ =>
        ⟨{ p with diagnostics := p.diagnostics ++ walked.run.diagnostics }, walked.result, .ok ()⟩
      | .error f => ⟨p, walked.result, .error (.fault f)⟩ := by
  rw [process, hctx, ← transformAll_eq_each]
  rfl

/-- A run comes to its end just when each of the declarations is transformed without a fault. -/
theorem process_outcome_iff (hctx : Context.build p.options.toChoices p.settings = .ok ctx) :
    (p.process ds).outcome = .ok () ↔
      ∀ d ∈ ds, (transformDeclaration ctx (p.properties ds) d).run.outcome = .ok () := by
  rw [process_of_build hctx, ← Walked.outcome_each_iff]
  dsimp only
  split
  · next u h => simp [h]
  · next f h => simp [h]

/-- A run that comes to its end leaves each declaration with its value transformed. -/
theorem process_of_ok (hctx : Context.build p.options.toChoices p.settings = .ok ctx)
    (hok : (p.process ds).outcome = .ok ()) :
    (p.process ds).declarations =
        ds.map (fun d => (d.1, (transform d.2 ctx (p.properties ds)).result)) ∧
      (p.process ds).processor.diagnostics = p.diagnostics ++ ds.flatMap fun d =>
        if d.2.hasCall then (transform d.2 ctx (p.properties ds)).run.diagnostics else [] := by
  have heach := Walked.outcome_each_iff.mpr ((process_outcome_iff hctx).mp hok)
  rw [process_of_build hctx]
  dsimp only
  rw [heach]
  dsimp only
  constructor
  · rw [Walked.each_result_of_ok heach]
    exact List.map_congr_left fun d _ => transformDeclaration_result ctx _ d
  · rw [Walked.diagnostics_of_each heach]
    exact congrArg _ (List.flatMap_congr fun d _ => transformDeclaration_diagnostics ctx _ d)

end

/-! ## Many runs -/

/-- A processor of the same options and settings that has made no run yet. -/
def fresh (p : Processor) : Processor :=
  { p with diagnostics := [] }

/-- A run does what it does for a fresh processor, and puts its diagnostics after the ones that were
there. -/
theorem process_eq_fresh (p : Processor) (ds : List Declaration) :
    p.process ds =
      { processor :=
          { p with diagnostics := p.diagnostics ++ (p.fresh.process ds).processor.diagnostics }
        declarations := (p.fresh.process ds).declarations
        outcome := (p.fresh.process ds).outcome } := by
  cases hctx : Context.build p.options.toChoices p.settings with
  | error e =>
    simp only [process, fresh, hctx, List.append_nil]
  | ok ctx =>
    have hctx' : Context.build p.fresh.options.toChoices p.fresh.settings = .ok ctx := hctx
    have hprops : p.fresh.properties ds = p.properties ds := rfl
    rw [process_of_build hctx, process_of_build hctx', hprops]
    dsimp only
    split <;> simp [fresh]

/-- One run after the other. -/
def processEach : Processor → List (List Declaration) → List Processed
  | _, [] => []
  | p, ds :: runs => p.process ds :: processEach (p.process ds).processor runs

/-- What each of many runs gives back, and the diagnostics after it. -/
theorem processEach_eq_fresh {runs : List (List Declaration)} : ∀ {p : Processor} {i : Nat}
    {ds : List Declaration}, runs[i]? = some ds →
    (p.processEach runs)[i]? = some
      { processor := { p with
          diagnostics := p.diagnostics ++
            (runs.take (i + 1)).flatMap fun ds => (p.fresh.process ds).processor.diagnostics }
        declarations := (p.fresh.process ds).declarations
        outcome := (p.fresh.process ds).outcome } := by
  induction runs with
  | nil => intro p i ds hds; cases hds
  | cons first runs ih =>
    intro p i ds hds
    cases i with
    | zero =>
      cases hds
      rw [processEach, List.getElem?_cons_zero, process_eq_fresh]
      simp
    | succ i =>
      rw [List.getElem?_cons_succ] at hds
      have hfresh : (p.process first).processor.fresh = p.fresh := by
        rw [process_eq_fresh]
        rfl
      rw [processEach, List.getElem?_cons_succ, ih hds, hfresh, process_eq_fresh p first]
      simp only [List.take_succ_cons, List.flatMap_cons, List.append_assoc]

/-- A run that comes to its end gives back the same names in the same order, each with its value
transformed by the properties as they were written before the run.  A value without calls, at
whatever depth, is as it was and adds no diagnostic.  In another order of the declarations, with the
custom properties in the same order among themselves, each value comes out the same.  Of many runs
each one gives back what it does for a fresh processor. -/
theorem process_transforms (p : Processor) :
    (∀ ds, (p.process ds).outcome = .ok () →
      ∃ ctx, Context.build p.options.toChoices p.settings = .ok ctx ∧
        let props := p.properties ds
        let after : Declaration → Declaration := fun d => (d.1, (transform d.2 ctx props).result)
        (∀ name, props.lookup name =
          if p.replacesVariables ∧ isCustomProperty name then ds.reverse.lookup name else none) ∧
        (p.process ds).declarations = ds.map after ∧
        (p.process ds).processor.diagnostics = p.diagnostics ++ ds.flatMap (fun d =>
          if d.2.hasCall then (transform d.2 ctx props).run.diagnostics else []) ∧
        (∀ d, ¬d.2.hasCall → after d = d) ∧
        (∀ tree : Node, tree.hasCall ↔
          ∃ path call, path ≠ [] ∧ tree.at? path = some call ∧ call.isCall) ∧
        ∀ ds' : List Declaration, ds'.Perm ds →
          (ds'.filter fun d => isCustomProperty d.1) = (ds.filter fun d => isCustomProperty d.1) →
          (p.process ds').outcome = .ok () ∧ (p.process ds').declarations = ds'.map after) ∧
    ∀ (runs : List (List Declaration)) (i : Nat) (ds : List Declaration), runs[i]? = some ds →
      ∃ run, (p.processEach runs)[i]? = some run ∧
        run.outcome = (p.fresh.process ds).outcome ∧
        run.declarations = (p.fresh.process ds).declarations ∧
        run.processor.diagnostics = p.diagnostics ++
          (runs.take (i + 1)).flatMap fun ds => (p.fresh.process ds).processor.diagnostics := by
  refine ⟨fun ds hok => ?_, fun runs i ds hds => ⟨_, processEach_eq_fresh hds, rfl, rfl, rfl⟩⟩
  obtain ⟨ctx, hctx⟩ : ∃ ctx, Context.build p.options.toChoices p.settings = .ok ctx := by
    cases hctx : Context.build p.options.toChoices p.settings with
    | ok ctx => exact ⟨ctx, rfl⟩
    | error e =>
      simp only [process, hctx] at hok
      cases hok
  obtain ⟨hdeclarations, hdiagnostics⟩ := process_of_ok hctx hok
  refine ⟨ctx, hctx, p.lookup_properties ds, hdeclarations, hdiagnostics, fun d hd => ?_,
    fun _ => hasCall_iff, fun ds' hperm hcustom => ?_⟩
  · exact Prod.ext rfl (result_transform_of_not_hasCall hd ctx _)
  · have hprops : p.properties ds' = p.properties ds := by
      rw [properties, properties, collect_eq_of_filter_eq hcustom]
    have hok' : (p.process ds').outcome = .ok () := by
      rw [process_outcome_iff hctx, hprops]
      exact fun d hd => (process_outcome_iff hctx).mp hok d (hperm.mem_iff.mp hd)
    exact ⟨hok', hprops ▸ (process_of_ok hctx hok').1⟩

/-- `color-mod(red)` -/
def redCall : Node :=
  .function colorModName [.word "red"]

/-- `var(--x)` -/
def variableX : Node :=
  .function "var" [.word "--x"]

/-- `--x: color-mod(red); color: color-mod(var(--x)); margin: var(--x)` -/
def redProperty : List Declaration :=
  [("--x", .root [redCall]), ("color", .root [.function colorModName [variableX]]),
    ("margin", .root [variableX])]

/-- The property of these declarations as it is written, before its own call is resolved. -/
def redProperties : Properties :=
  [("--x", .root [redCall])]

theorem substituteAll_red (props : Properties) (seen : List String) :
    substituteAll props seen [.word "red"] = ([.word "red"], true) :=
  substituteAll_leaf Bool.false_ne_true

theorem substituteAll_variableX : substituteAll redProperties [] [variableX] = ([redCall], true) := by
  have hdef : redProperties.lookup "--x" = some (.root [redCall]) := rfl
  rw [substituteAll_cons, substituteAll,
    substituteNode_of_defined rfl rfl List.not_mem_nil hdef, root, children, substituteAll_cons,
    substituteAll, redCall, substituteNode_function (by decide), substituteAll_red]
  rfl

theorem mapCalls_substitute_call (props : Properties) (args : List Node) :
    (root [.function colorModName args]).mapCalls (substitute props) =
      .root [.function colorModName (substituteAll props [] args).1] := by
  have hcall : (Node.function colorModName args).isCall :=
    (by decide +kernel : (Node.function colorModName []).isCall)
  rw [root, mapCalls, mapCallsAmong, if_pos hcall, substitute_function]
  rfl

theorem transform_redProperty (ctx : Context Float) :
    transform (.root [redCall]) ctx redProperties = walk (.root [redCall]) ctx ∧
    transform (.root [.function colorModName [variableX]]) ctx redProperties =
      walk (.root [.function colorModName [redCall]]) ctx := by
  constructor
  · exact congrArg (walk · ctx)
      ((mapCalls_substitute_call redProperties [.word "red"]).trans (by rw [substituteAll_red]; rfl))
  · exact congrArg (walk · ctx)
      ((mapCalls_substitute_call redProperties [variableX]).trans (by rw [substituteAll_variableX]))

/-- A property with a call stands for the call, also where the property has become a word.  The
declarations come out the same in the opposite order. -/
theorem process_transforms_redProperty :
    let texts : Processed → List (String × String) :=
      fun processed => processed.declarations.map fun d => (d.1, d.2.render)
    (ignoring.process redProperty).outcome = .ok () ∧
    texts (ignoring.process redProperty) =
      [("--x", "rgb(255, 0, 0)"), ("color", "rgb(255, 0, 0)"), ("margin", "var(--x)")] ∧
    texts (ignoring.process redProperty.reverse) =
      [("margin", "var(--x)"), ("color", "rgb(255, 0, 0)"), ("--x", "rgb(255, 0, 0)")] := by
  intro texts
  have hctx : Context.build ignoring.options.toChoices ignoring.settings = .ok ignoringContext := rfl
  have hprops : ignoring.properties redProperty = redProperties := rfl
  obtain ⟨hx, hcolor⟩ := transform_redProperty ignoringContext
  have hok : (ignoring.process redProperty).outcome = .ok () := by
    rw [process_outcome_iff hctx, hprops]
    intro d hd
    refine Run.outcome_eq_ok_of_isOk ?_
    revert d
    simp only [redProperty, List.forall_mem_cons, transformDeclaration, hx, hcolor]
    refine ⟨by decide +kernel, by decide +kernel, by decide +kernel, fun d hd => by cases hd⟩
  obtain ⟨hall, -⟩ := process_transforms ignoring
  obtain ⟨ctx, hctx', -, hdeclarations, -, hsame, -, hreorder⟩ := hall redProperty hok
  obtain rfl : ignoringContext = ctx := Except.ok.inj (hctx.symm.trans hctx')
  rw [hprops] at hdeclarations hsame hreorder
  have hmargin := hsame ("margin", .root [variableX]) (by decide +kernel)
  have hreversed := (hreorder _ (List.reverse_perm _) rfl).2
  refine ⟨hok, ?_, ?_⟩
  · simp only [texts, hdeclarations]
    simp only [redProperty, List.map_cons, List.map_nil, hx, hcolor, hmargin]
    decide +kernel
  · simp only [texts, hreversed]
    simp only [redProperty, List.reverse_cons, List.reverse_nil, List.nil_append, List.cons_append,
      List.map_cons, List.map_nil, hx, hcolor, hmargin]
    decide +kernel

end Processor

end ColorMod
