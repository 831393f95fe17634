import ColorMod.Proofs.Processing
import ColorMod.Proofs.SpacedRuns
import ColorMod.Proofs.SpacedVariables

/-!
# Spaces carry no meaning

A walk comes to the same calls in a tree and in the tree without spaces, and replaces them alike;
spaces add nothing to it (`walk_unspaced`).  What it leaves is a tree of the same kind, so its text
does not show the spaces either.

* `each_walkChild_unspaced`: the walk over nodes and the spaces among them.
* `transform_unspaced`: a value with its variables replaced and its calls resolved.
* `transform_respaced`: so two values that differ in spaces alone come out alike.
-/

namespace ColorMod

open Run

variable {α β γ : Type}

/-! ## Walks -/

/-- The second walk is the first without spaces. -/
structure Walked.Unspaced (strip : β → γ) (w : Walked α β) (w' : Walked α γ) : Prop where
  result_eq : w'.result = strip w.result
  run : Run.Unspaced id w.run w'.run

variable [Scalar α] [LightCurve α]

theorem replaceCall_unspaced {call : Node} (hcall : call.Delimited) (ctx : Context α) :
    Run.Unspaced Node.unspaced (replaceCall call ctx) (replaceCall call.unspaced ctx) := by
  refine (resolveColorMod_unspaced hcall ctx).bind fun resolution => ?_
  cases resolution with
  | ok c =>
    refine (Run.Unspaced.ofArithmetic (c.toCss ctx.format)).bind fun text => .tell_bind _ _ ?_
    exact .pure Node.unspaced (.word text)
  | error u => exact .pure Node.unspaced call

theorem walkCall_unspaced {call : Node} (hcall : call.Delimited) (ctx : Context α) :
    Walked.Unspaced Node.unspaced (walkCall call ctx) (walkCall call.unspaced ctx) where
  result_eq := by
    rw [walkCall, walkCall, (replaceCall_unspaced hcall ctx).outcome_eq]
    cases (replaceCall call ctx).outcome <;> rfl
  run := (replaceCall_unspaced hcall ctx).bind fun _ => .pure id ()

section

variable (ctx : Context α)

/-- A walk makes no spaces. -/
theorem kind_walkChild_ne_space {c : Node} (hc : c.kind ≠ .space) :
    (walkChild ctx c).result.kind ≠ .space := by
  unfold walkChild
  split
  · rcases walkCall_result c ctx with h | ⟨-, text, h⟩
    · rw [h]
      exact hc
    · rw [h]
      exact Node.Kind.noConfusion
  · split
    · exact hc
    · rw [Node.kind, head_walk]
      exact hc

/-- A walk leaves leaves other than calls. -/
theorem walkChild_leaf {h : Node.Head} (hcall : ¬(Node.leaf h).isCall) :
    walkChild ctx (.leaf h) = ⟨.leaf h, pure ()⟩ := by
  rw [walkChild, if_neg hcall]
  rfl

theorem walkChild_unspaced {c : Node} (hc : c.Delimited)
    (hwalk : Walked.Unspaced Node.unspaced (walk c ctx.descend) (walk c.unspaced ctx.descend)) :
    Walked.Unspaced Node.unspaced (walkChild ctx c) (walkChild ctx c.unspaced) := by
  have hempty : c.unspaced.children.isEmpty = c.children.isEmpty := by
    cases hc with
    | leaf h => rfl
    | function hkind hargs => rw [Node.unspaced, Node.unspacedAll_parens]; rfl
  unfold walkChild
  rw [Node.isCall_unspaced, hempty]
  split
  · exact walkCall_unspaced hc ctx
  · split
    · exact ⟨rfl, .pure id ()⟩
    · exact hwalk

/-- A space is passed by. -/
theorem walkChild_space {c : Node} (hc : c.Delimited) (hspace : c.kind = .space) :
    walkChild ctx c = ⟨c, pure ()⟩ := by
  have hcall : ¬(Node.leaf c.head).isCall := by
    rw [← hc.eq_leaf_of_space hspace]
    simp [Node.isCall, Node.isFunctionNamed, Node.isFunction, hspace]
  rw [hc.eq_leaf_of_space hspace]
  exact walkChild_leaf ctx hcall

omit [Scalar α] [LightCurve α] in
/-- A node that is left as no space, and the nodes after it. -/
theorem Walked.Unspaced.cons {first first' : Walked α Node} {others : List Node}
    {rest rest' : Unit → Walked α (List Node)} (hkind : first.result.kind ≠ .space)
    (hfirst : Walked.Unspaced Node.unspaced first first')
    (hrest : Walked.Unspaced Node.unspacedAll (rest ()) (rest' ())) :
    Walked.Unspaced Node.unspacedAll (first.cons others rest)
      (first'.cons (Node.unspacedAll others) rest') where
  result_eq := by
    have houtcome := hfirst.run.outcome_eq
    cases h : first.run.outcome with
    | ok u =>
      rw [h] at houtcome
      rw [Walked.cons_result_of_ok h, Walked.cons_result_of_ok houtcome,
        Node.unspacedAll_cons hkind, hfirst.result_eq, hrest.result_eq]
    | error fault =>
      rw [h] at houtcome
      rw [Walked.cons_result_of_error h, Walked.cons_result_of_error houtcome,
        Node.unspacedAll_cons hkind, hfirst.result_eq]
  run := by
    rw [Walked.cons_run, Walked.cons_run]
    exact hfirst.run.bind fun _ => hrest.run

/-- Spaces among nodes add nothing to the walk over them. -/
theorem each_walkChild_unspaced {cs : List Node} (hcs : ∀ c ∈ cs, c.Delimited)
    (hwalk : ∀ c ∈ cs, Walked.Unspaced Node.unspaced (walkChild ctx c) (walkChild ctx c.unspaced)) :
    Walked.Unspaced Node.unspacedAll (.each (walkChild ctx) cs)
      (.each (walkChild ctx) (Node.unspacedAll cs)) := by
  induction cs with
  | nil => exact ⟨rfl, .pure id ()⟩
  | cons c cs ih =>
    obtain ⟨hc, hcs⟩ := List.forall_mem_cons.mp hcs
    obtain ⟨hfirst, hrest⟩ := List.forall_mem_cons.mp hwalk
    have ih := ih hcs hrest
    by_cases hspace : c.kind = .space
    · -- the second walk does not have the space at all
      have hpassed := walkChild_space ctx hc hspace
      rw [Node.unspacedAll_cons_space hspace]
      constructor
      · rw [ih.result_eq, Walked.each, hpassed, Walked.cons_result_of_ok rfl,
          Node.unspacedAll_cons_space hspace]
      · rw [Walked.each, hpassed, Walked.cons_run, pure_bind]
        exact ih.run
    · rw [Node.unspacedAll_cons hspace, Walked.each, Walked.each]
      exact hfirst.cons (kind_walkChild_ne_space ctx hspace) ih

end

/-- The walk over a whole value does the same without the spaces in it. -/
theorem walk_unspaced_of_children {n : Node} (hn : n.DelimitedRoot) (ctx : Context α)
    (hwalk : ∀ c ∈ n.children,
      Walked.Unspaced Node.unspaced (walkChild ctx c) (walkChild ctx c.unspaced)) :
    Walked.Unspaced Node.unspaced (walk n ctx) (walk n.unspaced ctx) := by
  by_cases hdeep : ctx.tooDeep
  · rw [walk_of_tooDeep ctx n hdeep, walk_of_tooDeep ctx n.unspaced hdeep, hn.outline_unspaced]
    exact ⟨rfl, (Run.Unspaced.report ctx n _ _).bind fun _ => .pure id ()⟩
  · cases n with
    | leaf h =>
      rw [Node.unspaced, walk_leaf ctx h hdeep]
      exact ⟨rfl, .pure id ()⟩
    | branch h cs =>
      have heach := each_walkChild_unspaced ctx hn.children hwalk
      rw [Node.unspaced, walk_branch ctx h cs hdeep, walk_branch ctx h _ hdeep, walkAll_eq_each,
        walkAll_eq_each]
      exact ⟨congrArg (Node.branch h) heach.result_eq, heach.run⟩

theorem walk_unspaced_of_delimited (n : Node) : ∀ (ctx : Context α), n.Delimited →
    Walked.Unspaced Node.unspaced (walk n ctx) (walk n.unspaced ctx) := by
  induction n using Node.induction_on_children with
  | step n ih =>
    intro ctx hn
    refine walk_unspaced_of_children (.delimited hn) ctx fun c hc => ?_
    exact walkChild_unspaced ctx (hn.children c hc) (ih c hc ctx.descend (hn.children c hc))

theorem walk_unspaced {n : Node} (hn : n.DelimitedRoot) (ctx : Context α) :
    Walked.Unspaced Node.unspaced (walk n ctx) (walk n.unspaced ctx) := by
  refine walk_unspaced_of_children hn ctx fun c hc => ?_
  have hdelimited := hn.children c hc
  exact walkChild_unspaced ctx hdelimited (walk_unspaced_of_delimited c ctx.descend hdelimited)

/-! ## What a walk leaves -/

section

variable (ctx : Context α)

/-- The parentheses of a function stay where they are. -/
theorem each_walkChild_parens (args : List Node) :
    (Walked.each (walkChild ctx) (.paren "(" :: args ++ [.paren ")"])).result =
      .paren "(" :: (Walked.each (walkChild ctx) args).result ++ [.paren ")"] := by
  have hparen : ∀ text, walkChild ctx (.paren text) = ⟨.paren text, Pure.pure ()⟩ :=
    fun text => walkChild_leaf ctx Bool.false_ne_true
  rw [List.cons_append, Walked.each, hparen, Walked.cons_result_of_ok rfl]
  cases h : (Walked.each (walkChild ctx) args).run.outcome with
  | ok u => rw [Walked.each_append_of_ok _ h, Walked.each, hparen]; rfl
  | error fault => rw [Walked.each_append_of_error _ h]; rfl

theorem delimited_walkChild {c : Node} (hc : c.Delimited)
    (hwalk : (walk c ctx.descend).result.Delimited) : (walkChild ctx c).result.Delimited := by
  unfold walkChild
  split
  · rcases walkCall_result c ctx with h | ⟨-, text, h⟩
    · rw [h]
      exact hc
    · rw [h]
      exact .leaf _
  · split
    · exact hc
    · exact hwalk

theorem delimited_walk (n : Node) : ∀ ctx : Context α, n.Delimited →
    (walk n ctx).result.Delimited := by
  induction n using Node.induction_on_children with
  | step n ih =>
    intro ctx hn
    by_cases hdeep : ctx.tooDeep
    · rw [walk_of_tooDeep ctx n hdeep]
      exact hn
    · cases hn with
      | leaf h =>
        rw [walk_leaf ctx h hdeep]
        exact .leaf h
      | function hkind hargs =>
        rw [walk_branch ctx _ _ hdeep, walkAll_eq_each, each_walkChild_parens]
        refine .function hkind (Walked.forall_mem_each fun a ha => ⟨hargs a ha, ?_⟩)
        exact delimited_walkChild ctx (hargs a ha) (ih a (by simp [Node.children, ha]) _ (hargs a ha))

theorem delimitedRoot_walk {n : Node} (hn : n.DelimitedRoot) :
    (walk n ctx).result.DelimitedRoot := by
  cases hn with
  | root hkind hcs =>
    by_cases hdeep : ctx.tooDeep
    · rw [walk_of_tooDeep ctx _ hdeep]
      exact .root hkind hcs
    · rw [walk_branch ctx _ _ hdeep, walkAll_eq_each]
      refine .root hkind (Walked.forall_mem_each fun c hc => ⟨hcs c hc, ?_⟩)
      exact delimited_walkChild ctx (hcs c hc) (delimited_walk c _ (hcs c hc))
  | delimited hn => exact .delimited (delimited_walk n ctx hn)

end

/-! ## Values -/

/-- A value without spaces, with properties without spaces, is transformed alike. -/
theorem transform_unspaced {tree : Node} (htree : tree.DelimitedRoot) {props : Properties}
    (hprops : props.Delimited) (ctx : Context α) :
    Walked.Unspaced Node.unspaced (transform tree ctx props)
        (transform tree.unspaced ctx props.unspaced) ∧
      (transform tree ctx props).result.DelimitedRoot := by
  have hempty : props.unspaced.isEmpty = props.isEmpty := by cases props <;> rfl
  unfold transform
  rw [hempty]
  split
  · exact ⟨walk_unspaced htree ctx, delimitedRoot_walk ctx htree⟩
  · have hcalls := htree.mapCalls hprops
    rw [← htree.unspaced_mapCalls hprops]
    exact ⟨walk_unspaced hcalls ctx, delimitedRoot_walk ctx hcalls⟩

/-- Spaces carry no meaning: two values that are the same without their spaces, with properties that
are, come out with the same text and the same diagnostics, and end the same, but for the spaces in
the node that a fault is about. -/
theorem transform_respaced {tree tree' : Node} {props props' : Properties}
    (htree : tree.DelimitedRoot) (htree' : tree'.DelimitedRoot) (hprops : props.Delimited)
    (hprops' : props'.Delimited) (hsame : tree.unspaced = tree'.unspaced)
    (hsameProps : props.unspaced = props'.unspaced) (ctx : Context α) :
    let left := transform tree ctx props
    let right := transform tree' ctx props'
    left.result.render = right.result.render ∧ left.run.diagnostics = right.run.diagnostics ∧
      left.run.outcome.mapError Fault.unspaced = right.run.outcome.mapError Fault.unspaced := by
  intro left right
  obtain ⟨hleft, hdelimited⟩ := transform_unspaced htree hprops ctx
  obtain ⟨hright, hdelimited'⟩ := transform_unspaced htree' hprops' ctx
  rw [← hsame, ← hsameProps] at hright
  refine ⟨?_, ?_, ?_⟩
  · rw [← hdelimited.render_unspaced, ← hleft.result_eq, hright.result_eq,
      hdelimited'.render_unspaced]
  · exact hleft.run.diagnostics_eq.symm.trans hright.run.diagnostics_eq
  · have hid : ∀ outcome : Except Fault Unit, outcome.map id = outcome := by
      rintro (fault | u) <;> rfl
    have houtcome := hleft.run.outcome_eq.symm.trans hright.run.outcome_eq
    rwa [hid, hid] at houtcome

/-- ` color-mod( var( --x ) )`, with blanks in places where none was needed. -/
def Node.spacedVariable : Node :=
  .root [.space, .function colorModName [.space, .function "var" [.space, .word "--x", .space],
    .space]]

/-- `--x:  color-mod(red )` -/
def spacedProperties : Properties :=
  [("--x", .root [.space, .space, .function colorModName [.word "red", .space]])]

/-- The value with blanks comes out as `color-mod(var(--x))` does. -/
theorem transform_respaced_spacedVariable :
    let ctx : Context Float := { policy := .warn, format := .legacy, maxDepth := 64, cutoff := 75 }
    let walked := transform Node.spacedVariable ctx spacedProperties
    walked.result.render = "rgb(255, 0, 0)" ∧ walked.run.diagnostics = [] ∧
      walked.run.outcome.isOk := by
  intro ctx walked
  have hleft : Node.spacedVariable.DelimitedRoot :=
    .root rfl (by simp [Node.space, Node.word])
  have hright : (Node.root [.function colorModName [Processor.variableX]]).DelimitedRoot :=
    .root rfl (by simp [Processor.variableX, Node.word])
  have hleftProps : spacedProperties.Delimited :=
    List.forall_mem_singleton.mpr (.root rfl (by simp [Node.space, Node.word]))
  have hrightProps : Properties.Delimited Processor.redProperties :=
    List.forall_mem_singleton.mpr (.root rfl (by simp [Processor.redCall, Node.word]))
  obtain ⟨htext, hdiagnostics, houtcome⟩ :=
    transform_respaced hleft hright hleftProps hrightProps rfl rfl ctx
  rw [(Processor.transform_redProperty ctx).2] at htext hdiagnostics houtcome
  refine ⟨htext.trans (by decide +kernel), hdiagnostics.trans (by decide +kernel), ?_⟩
  have hok : (walk (.root [.function colorModName [Processor.redCall]]) ctx).run.outcome.isOk := by
    decide +kernel
  rw [Run.outcome_eq_ok_of_isOk hok] at houtcome
  change (walked.run.outcome.mapError Fault.unspaced) = _ at houtcome
  cases h : walked.run.outcome with
  | ok u => rfl
  | error fault => rw [h] at houtcome; cases houtcome

end ColorMod
