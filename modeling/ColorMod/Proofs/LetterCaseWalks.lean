import ColorMod.Proofs.LetterCase
import ColorMod.Proofs.Positions
import ColorMod.Proofs.SilentReading
import ColorMod.Proofs.Walks
import ColorMod.Scalar.Binary64

/-!
# Letter case does not matter

The walks over two trees in which only the case of letters differs go alike: they put the same texts
in the places of the same calls, note the same and end the same (`walk_letterCase`).

* `Node.withTexts`: a tree with texts in the places of some of its nodes.
* `Node.OuterCall.of_lowered`: the calls are at the same positions in both trees.
* `Walked.Alike`: what the walks over a pair of nodes have in common, with a lemma for each part of
  a walk.
* `Run.Invariant.walk`: a property of all runs is one of walks.
-/

namespace ColorMod

open Run

namespace Node

/-! ## Texts in a tree -/

mutual

/-- The tree with texts at some positions, each as a word in the place of what was there. -/
def withTexts : Node → (List Nat → Option String) → Node
  | leaf h, texts => ((texts []).map word).getD (leaf h)
  | branch h cs, texts =>
    ((texts []).map word).getD (branch h (withTextsAmong cs fun i path => texts (i :: path)))

def withTextsAmong : List Node → (Nat → List Nat → Option String) → List Node
  | [], _ => []
  | c :: cs, texts => c.withTexts (texts 0) :: withTextsAmong cs fun i => texts (i + 1)

end

mutual

/-- Without texts the tree stays as it is. -/
theorem withTexts_none : ∀ n : Node, (n.withTexts fun _ => none) = n
  | leaf h => by rw [withTexts]; rfl
  | branch h cs => by rw [withTexts, withTextsAmong_none cs]; rfl

theorem withTextsAmong_none : ∀ cs : List Node, (withTextsAmong cs fun _ _ => none) = cs
  | [] => by rw [withTextsAmong]
  | c :: cs => by rw [withTextsAmong, withTexts_none c, withTextsAmong_none cs]

end

/-- A text at the root is all that is left. -/
theorem withTexts_of_root (n : Node) {texts : List Nat → Option String} {text : String}
    (h : texts [] = some text) : n.withTexts texts = word text := by
  cases n <;> rw [withTexts, h] <;> rfl

/-! ## Calls at positions -/

/-- At the position is a call, and no call is above of it. -/
def OuterCall (tree : Node) (path : List Nat) : Prop :=
  path ≠ [] ∧ ¬tree.InsideCall path ∧ ∃ call, tree.at? path = some call ∧ call.isCall

/-- The same from a child on, which may itself be the call. -/
def OuterCallFrom (c : Node) (path : List Nat) : Prop :=
  ∃ call, (path, call) ∈ c.outsideFrom ∧ call.isCall

theorem outerCall_cons {n : Node} {i : Nat} {path : List Nat} :
    n.OuterCall (i :: path) ↔ ∃ c, n.children[i]? = some c ∧ c.OuterCallFrom path := by
  constructor
  · rintro ⟨-, hout, call, hat, hcall⟩
    obtain ⟨c, hc, hmem⟩ := mem_outside_cons.mp (mem_outside_iff.mpr ⟨hat, hout⟩)
    exact ⟨c, hc, call, hmem, hcall⟩
  · rintro ⟨c, hc, call, hmem, hcall⟩
    obtain ⟨hat, hout⟩ := mem_outside_iff.mp (mem_outside_cons.mpr ⟨c, hc, hmem⟩)
    exact ⟨List.cons_ne_nil i path, hout, call, hat, hcall⟩

theorem OuterCall.outerCallFrom {c : Node} {path : List Nat} (h : c.OuterCall path)
    (hcall : ¬c.isCall) : c.OuterCallFrom path := by
  obtain ⟨-, hout, call, hat, hcall'⟩ := h
  refine ⟨call, ?_, hcall'⟩
  rw [outsideFrom, if_neg hcall]
  exact mem_outside_iff.mpr ⟨hat, hout⟩

/-! ### In lower case -/

theorem at?_lowered (n : Node) (path : List Nat) :
    n.lowered.at? path = (n.at? path).map lowered := by
  induction path generalizing n with
  | nil => rfl
  | cons i path ih =>
    rw [at?, at?, children_lowered, List.getElem?_map]
    cases n.children[i]? with
    | none => rfl
    | some c => exact ih c

variable {m n : Node}

theorem isCall_of_lowered (h : m.lowered = n.lowered) : m.isCall = n.isCall := by
  simp only [isCall, isFunctionNamed, isFunction, letterCase.kind_eq h, letterCase.name_eq h]

theorem callAt_of_lowered (h : m.lowered = n.lowered) {path : List Nat}
    (hm : ∃ call, m.at? path = some call ∧ call.isCall) :
    ∃ call, n.at? path = some call ∧ call.isCall := by
  obtain ⟨call, hat, hcall⟩ := hm
  have hat' : (n.at? path).map lowered = some call.lowered := by
    rw [← at?_lowered, ← h, at?_lowered, hat]
    rfl
  obtain ⟨call', hat', hlowered⟩ := Option.map_eq_some_iff.mp hat'
  exact ⟨call', hat', (isCall_of_lowered hlowered).trans hcall⟩

theorem insideCall_of_lowered (h : m.lowered = n.lowered) {path : List Nat}
    (hm : m.InsideCall path) : n.InsideCall path := by
  obtain ⟨above, below, call, hpath, habove, hbelow, hat, hcall⟩ := hm
  obtain ⟨call', hat', hcall'⟩ := callAt_of_lowered h ⟨call, hat, hcall⟩
  exact ⟨above, below, call', hpath, habove, hbelow, hat', hcall'⟩

/-- The case of letters does not tell where the calls are. -/
theorem OuterCall.of_lowered (h : m.lowered = n.lowered) {path : List Nat}
    (hm : m.OuterCall path) : n.OuterCall path := by
  obtain ⟨hpath, hout, hcall⟩ := hm
  exact ⟨hpath, mt (insideCall_of_lowered h.symm) hout, callAt_of_lowered h hcall⟩

end Node

/-! ## Two walks -/

variable {α β : Type}

/-- The walks go alike, and put the same texts in the places of the same calls. -/
structure Walked.Alike (m n : Node) (Place : List Nat → Prop) (w w' : Walked α Node) : Prop where
  run : Node.letterCase.Runs Eq w.run w'.run
  texts : ∃ texts : List Nat → Option String, (∀ path, (texts path).isSome → Place path) ∧
    w.result = m.withTexts texts ∧ w'.result = n.withTexts texts

/-- The same for the walks over siblings. -/
structure Walked.AlikeAmong (cs ds : List Node) (w w' : Walked α (List Node)) : Prop where
  run : Node.letterCase.Runs Eq w.run w'.run
  texts : ∃ texts : Nat → List Nat → Option String,
    (∀ i path, (texts i path).isSome → ∃ c, cs[i]? = some c ∧ c.OuterCallFrom path) ∧
    w.result = Node.withTextsAmong cs texts ∧ w'.result = Node.withTextsAmong ds texts

/-- Nodes that stay as they are. -/
theorem Walked.Alike.same {m n : Node} (Place : List Nat → Prop) {run run' : Run α Unit}
    (h : Node.letterCase.Runs Eq run run') : Walked.Alike m n Place ⟨m, run⟩ ⟨n, run'⟩ where
  run := h
  texts := ⟨fun _ => none, fun _ hsome => (by cases hsome), m.withTexts_none.symm,
    n.withTexts_none.symm⟩

/-- A pair of nodes and the pairs after it. -/
theorem Walked.AlikeAmong.cons {c d : Node} {cs ds : List Node} {first first' : Walked α Node}
    {rest rest' : Unit → Walked α (List Node)}
    (hfirst : Walked.Alike c d c.OuterCallFrom first first')
    (hrest : Walked.AlikeAmong cs ds (rest ()) (rest' ())) :
    Walked.AlikeAmong (c :: cs) (d :: ds) (first.cons cs rest) (first'.cons ds rest') where
  run := by
    rw [Walked.cons_run, Walked.cons_run]
    exact hfirst.run.bind fun _ _ _ => hrest.run
  texts := by
    obtain ⟨texts, hplace, hresult, hresult'⟩ := hfirst.texts
    have houtcome := hfirst.run.outcome
    cases h : first.run.outcome with
    | ok u =>
      cases h' : first'.run.outcome with
      | error fault => rw [h, h'] at houtcome; cases houtcome
      | ok u' =>
        obtain ⟨others, hothers, hresults, hresults'⟩ := hrest.texts
        refine ⟨fun i => i.casesOn texts others, ?_, ?_, ?_⟩
        · rintro (_ | i) path hsome
          · exact ⟨c, rfl, hplace path hsome⟩
          · exact hothers i path hsome
        · rw [Walked.cons_result_of_ok h, Node.withTextsAmong, hresult, hresults]
          rfl
        · rw [Walked.cons_result_of_ok h', Node.withTextsAmong, hresult', hresults']
          rfl
    | error fault =>
      cases h' : first'.run.outcome with
      | ok u' => rw [h, h'] at houtcome; cases houtcome
      | error fault' =>
        -- after a fault the others have no texts
        refine ⟨fun i => i.casesOn texts fun _ _ => none, ?_, ?_, ?_⟩
        · rintro (_ | i) path hsome
          · exact ⟨c, rfl, hplace path hsome⟩
          · cases hsome
        · rw [Walked.cons_result_of_error h, Node.withTextsAmong, hresult,
            Node.withTextsAmong_none]
          rfl
        · rw [Walked.cons_result_of_error h', Node.withTextsAmong, hresult',
            Node.withTextsAmong_none]
          rfl

variable [Scalar α] [LightCurve α] {c d : Node}

/-- Both calls give way to the same text, or both stay. -/
theorem replaceCall_runs (h : c.lowered = d.lowered) (ctx : Context α) :
    Node.letterCase.Runs
      (fun r r' => (∃ text, r = .word text ∧ r' = .word text) ∨ r = c ∧ r' = d)
      (replaceCall c ctx) (replaceCall d ctx) := by
  refine (NodeLikeness.resolveColorMod_runs h ctx).bind fun resolution resolution' hresolves => ?_
  cases hresolves with
  | ok hcolor =>
    cases hcolor
    refine (NodeLikeness.Runs.ofArithmetic _).bind fun text _ htext => .tell_bind _ _ ?_
    cases htext
    exact .pure (.inl ⟨text, rfl, rfl⟩)
  | error hrejects => exact .pure (.inr ⟨rfl, rfl⟩)

theorem walkCall_result_cases_of_lowered (h : c.lowered = d.lowered) (ctx : Context α) :
    (∃ text, (walkCall c ctx).result = .word text ∧ (walkCall d ctx).result = .word text) ∨
      (walkCall c ctx).result = c ∧ (walkCall d ctx).result = d := by
  have houtcome := (replaceCall_runs h ctx).outcome
  rw [walkCall, walkCall]
  generalize (replaceCall c ctx).outcome = outcome at houtcome
  generalize (replaceCall d ctx).outcome = outcome' at houtcome
  cases houtcome with
  | ok hreplaced => exact hreplaced
  | error _ => exact .inr ⟨rfl, rfl⟩

theorem walkCall_alike (h : c.lowered = d.lowered) (hcall : c.isCall) (ctx : Context α) :
    Walked.Alike c d c.OuterCallFrom (walkCall c ctx) (walkCall d ctx) where
  run := (replaceCall_runs h ctx).bind fun _ _ _ => .pure rfl
  texts := by
    rcases walkCall_result_cases_of_lowered h ctx with ⟨text, hc, hd⟩ | ⟨hc, hd⟩
    · refine ⟨fun path => if path = [] then some text else none, fun path hsome => ?_,
        hc.trans (c.withTexts_of_root (if_pos rfl)).symm,
        hd.trans (d.withTexts_of_root (if_pos rfl)).symm⟩
      obtain rfl : path = [] := by
        by_contra hpath
        simp [hpath] at hsome
      refine ⟨c, ?_, hcall⟩
      rw [Node.outsideFrom, if_pos hcall]
      exact List.mem_singleton_self _
    · exact ⟨fun _ => none, fun _ hsome => (by cases hsome), hc.trans c.withTexts_none.symm,
        hd.trans d.withTexts_none.symm⟩

theorem isEmpty_children_of_lowered (h : c.lowered = d.lowered) :
    c.children.isEmpty = d.children.isEmpty := by
  have hchildren := congrArg (fun n : Node => n.children.isEmpty) h
  simpa only [Node.children_lowered, List.isEmpty_map] using hchildren

theorem walkChild_alike (h : c.lowered = d.lowered) (ctx : Context α)
    (hwalk : Walked.Alike c d c.OuterCall (walk c ctx.descend) (walk d ctx.descend)) :
    Walked.Alike c d c.OuterCallFrom (walkChild ctx c) (walkChild ctx d) := by
  unfold walkChild
  rw [← Node.isCall_of_lowered h, ← isEmpty_children_of_lowered h]
  split
  · next hcall => exact walkCall_alike h hcall ctx
  · next hcall =>
    split
    · exact .same _ (.pure rfl)
    · obtain ⟨texts, hplace, hresult, hresult'⟩ := hwalk.texts
      exact ⟨hwalk.run, texts, fun path hsome => (hplace path hsome).outerCallFrom hcall, hresult,
        hresult'⟩

theorem each_walkChild_alike {cs ds : List Node} (h : cs.map Node.lowered = ds.map Node.lowered)
    (ctx : Context α)
    (hwalk : ∀ c ∈ cs, ∀ d, c.lowered = d.lowered →
      Walked.Alike c d c.OuterCall (walk c ctx.descend) (walk d ctx.descend)) :
    Walked.AlikeAmong cs ds (Walked.each (walkChild ctx) cs) (Walked.each (walkChild ctx) ds) := by
  induction cs generalizing ds with
  | nil =>
    obtain rfl : ds = [] := List.map_eq_nil_iff.mp h.symm
    exact ⟨.pure rfl, fun _ _ => none, fun _ _ hsome => (by cases hsome), rfl, rfl⟩
  | cons c cs ih =>
    obtain ⟨d, ds, rfl, hd, hds⟩ := List.map_eq_cons_iff.mp h.symm
    obtain ⟨hfirst, hrest⟩ := List.forall_mem_cons.mp hwalk
    exact .cons (walkChild_alike hd.symm ctx (hfirst d hd.symm)) (ih hds.symm hrest)

/-- The walks over trees in which only the case of letters differs go alike. -/
theorem walk_alike (m : Node) : ∀ (n : Node) (ctx : Context α), m.lowered = n.lowered →
    Walked.Alike m n m.OuterCall (walk m ctx) (walk n ctx) := by
  induction m using Node.induction_on_children with
  | step m ih =>
    intro n ctx hlowered
    by_cases hdeep : ctx.tooDeep
    · rw [walk_of_tooDeep ctx m hdeep, walk_of_tooDeep ctx n hdeep]
      have houtline := Node.letterCase.text_outline hlowered
      exact .same _ ((NodeLikeness.Runs.report ctx hlowered houtline .tooDeep).bind
        fun _ _ _ => .pure rfl)
    · have hchildren : m.children.map Node.lowered = n.children.map Node.lowered := by
        rw [← Node.children_lowered, ← Node.children_lowered, hlowered]
      have hbranch : m.isBranch = n.isBranch := by
        rw [← Node.isBranch_lowered, hlowered, Node.isBranch_lowered]
      have heach := each_walkChild_alike hchildren ctx fun c hc d => ih c hc d ctx.descend
      cases m with
      | leaf h =>
        cases n with
        | branch h' ds => cases hbranch
        | leaf h' =>
          rw [walk_leaf ctx h hdeep, walk_leaf ctx h' hdeep]
          exact .same _ (.pure rfl)
      | branch h cs =>
        cases n with
        | leaf h' => cases hbranch
        | branch h' ds =>
          rw [walk_branch ctx h cs hdeep, walk_branch ctx h' ds hdeep, walkAll_eq_each,
            walkAll_eq_each]
          obtain ⟨texts, hplace, hresult, hresult'⟩ := heach.texts
          refine ⟨heach.run, fun path => path.casesOn none texts, ?_, ?_, ?_⟩
          · rintro (_ | ⟨i, path⟩) hsome
            · cases hsome
            · exact Node.outerCall_cons.mpr (hplace i path hsome)
          · exact congrArg (Node.branch h) hresult
          · exact congrArg (Node.branch h') hresult'

/-! ## Properties of walks -/

section

variable {Admits : Context α → Prop} {Holds : (β : Type) → Run α β → Prop}
  (inv : Run.Invariant Admits Holds)

include inv

theorem Run.Invariant.replaceCall {ctx : Context α} (hctx : Admits ctx) (call : Node) :
    Holds _ (replaceCall call ctx) := by
  refine inv.bind (inv.resolveCall hctx call (inv.arguments call)) fun resolution => ?_
  cases resolution with
  | ok color =>
    exact inv.bind (inv.ofArithmetic _) fun text => inv.bind (inv.tell _) fun _ => inv.pure _
  | error u => exact inv.pure _

omit [LightCurve α] in
theorem Run.Invariant.each {β : Type} {f : β → Walked α β} {bs : List β}
    (h : ∀ b ∈ bs, Holds _ (f b).run) : Holds _ (Walked.each f bs).run := by
  induction bs with
  | nil => exact inv.pure _
  | cons b bs ih =>
    obtain ⟨hb, hbs⟩ := List.forall_mem_cons.mp h
    rw [Walked.each, Walked.cons_run]
    exact inv.bind hb fun _ => ih hbs

/-- A property of all that runs are made of is one of walks. -/
theorem Run.Invariant.walk (n : Node) : ∀ {ctx : Context α}, Admits ctx →
    Holds _ (walk n ctx).run := by
  induction n using Node.induction_on_children with
  | step n ih =>
    intro ctx hctx
    by_cases hdeep : ctx.tooDeep
    · rw [walk_of_tooDeep ctx n hdeep]
      exact inv.bind (inv.report hctx ..) fun _ => inv.pure _
    · cases n with
      | leaf h =>
        rw [walk_leaf ctx h hdeep]
        exact inv.pure _
      | branch h cs =>
        rw [walk_branch ctx h cs hdeep, walkAll_eq_each]
        refine inv.each fun c hc => ?_
        unfold walkChild
        repeat' split
        · exact inv.bind (inv.replaceCall hctx c) fun _ => inv.pure _
        · exact inv.pure _
        · exact ih c hc (inv.descend hctx)

end

/-! ## What does not show the case -/

def Diagnostic.lowered (d : Diagnostic) : Diagnostic :=
  { d with word := d.word.toLower }

def Fault.lowered : Fault → Fault
  | .unresolved u => .unresolved { u.toDiagnostic.lowered with node := u.node.lowered }
  | fault => fault

section

omit [Scalar α] [LightCurve α]

variable {x y : Run α β}

theorem notes_letterCase {d e : Diagnostic} (h : Node.letterCase.Notes d e) :
    d.lowered = e.lowered := by
  obtain ⟨complaint, word⟩ := d
  obtain ⟨rfl, hword⟩ := h
  exact congrArg (Diagnostic.mk _) hword

theorem faults_letterCase {fault fault' : Fault} (h : Node.letterCase.Faults fault fault') :
    fault.lowered = fault'.lowered := by
  cases h with
  | arithmetic fault => rfl
  | suggestion fault => rfl
  | unresolved h =>
    have hnode := h.node
    simp only [Fault.lowered, notes_letterCase h.notes, Fault.unresolved.injEq,
      Unresolved.mk.injEq, true_and]
    exact hnode

theorem diagnostics_letterCase (h : Node.letterCase.Runs Eq x y) :
    x.diagnostics.map Diagnostic.lowered = y.diagnostics.map Diagnostic.lowered := by
  rw [← List.forall₂_eq_eq_eq, List.forall₂_map_left_iff, List.forall₂_map_right_iff]
  exact h.diagnostics.imp fun _ _ => notes_letterCase

theorem outcome_letterCase (h : Node.letterCase.Runs Eq x y) :
    x.outcome.mapError Fault.lowered = y.outcome.mapError Fault.lowered := by
  have houtcome := h.outcome
  generalize x.outcome = outcome, y.outcome = outcome' at houtcome
  cases houtcome with
  | ok h => rw [h]
  | error h => exact congrArg Except.error (faults_letterCase h)

/-- Faults that are not about a node are the same. -/
theorem outcome_eq_of_unraised (h : Node.letterCase.Runs Eq x y) (hx : x.Unraised) :
    x.outcome = y.outcome := by
  have houtcome := h.outcome
  unfold Run.Unraised at hx
  generalize x.outcome = outcome, y.outcome = outcome' at houtcome hx
  cases houtcome with
  | ok h => rw [h]
  | error h =>
    cases h with
    | arithmetic fault => rfl
    | suggestion fault => rfl
    | unresolved h => exact absurd rfl (hx _)

end

/-- Letter case does not matter: walks over trees that differ only in the case of letters put the
same texts in the places of the same calls, note the same about words that differ in case alone, and
end alike.  They end the same unless a complaint can end them. -/
theorem walk_letterCase {tree tree' : Node} (h : tree.lowered = tree'.lowered) (ctx : Context α) :
    let left := walk tree ctx
    let right := walk tree' ctx
    (∃ texts : List Nat → Option String,
      (∀ path, (texts path).isSome → tree.OuterCall path ∧ tree'.OuterCall path) ∧
      left.result = tree.withTexts texts ∧ right.result = tree'.withTexts texts) ∧
    left.run.diagnostics.map Diagnostic.lowered = right.run.diagnostics.map Diagnostic.lowered ∧
    left.run.outcome.mapError Fault.lowered = right.run.outcome.mapError Fault.lowered ∧
    (ctx.policy ≠ .raise → left.run.outcome = right.run.outcome) := by
  intro left right
  have halike := walk_alike tree tree' ctx h
  obtain ⟨texts, hplace, hleft, hright⟩ := halike.texts
  refine ⟨⟨texts, fun path hsome => ?_, hleft, hright⟩, diagnostics_letterCase halike.run,
    outcome_letterCase halike.run, fun hpolicy => ?_⟩
  · have houter := hplace path hsome
    exact ⟨houter, houter.of_lowered h⟩
  · exact outcome_eq_of_unraised halike.run (Run.unraised_invariant.walk tree hpolicy)

/-- `Color-Mod(RED Hue(120DEG)) color-mod(Nope)` -/
def Node.mixedCase : Node :=
  .root [.function "Color-Mod" [.word "RED", .function "Hue" [.number "120" "DEG"]],
    .function "color-mod" [.word "Nope"]]

/-- `color-mod(Red hue(120deg)) COLOR-MOD(nope)` -/
def Node.otherCase : Node :=
  .root [.function "color-mod" [.word "Red", .function "hue" [.number "120" "deg"]],
    .function "COLOR-MOD" [.word "nope"]]

/-- In both trees the first call becomes a color and the second one stays. -/
theorem walk_letterCase_mixedCase :
    let ctx : Context Float := { policy := .warn, format := .legacy, maxDepth := 64, cutoff := 75 }
    let left := walk Node.mixedCase ctx
    let right := walk Node.otherCase ctx
    left.run.outcome = right.run.outcome ∧
      left.run.diagnostics.map Diagnostic.lowered = right.run.diagnostics.map Diagnostic.lowered ∧
      left.result.render = "hsl(120, 100%, 50%) color-mod(Nope)" ∧
      right.result.render = "hsl(120, 100%, 50%) COLOR-MOD(nope)" := by
  intro ctx left right
  have hlowered : Node.mixedCase.lowered = Node.otherCase.lowered := by
    have htexts : "Color-Mod".toLower = "color-mod" ∧ "COLOR-MOD".toLower = "color-mod" ∧
        "color-mod".toLower = "color-mod" ∧ "RED".toLower = "red" ∧ "Red".toLower = "red" ∧
        "Hue".toLower = "hue" ∧ "hue".toLower = "hue" ∧ "DEG".toLower = "deg" ∧
        "deg".toLower = "deg" ∧ "Nope".toLower = "nope" ∧ "nope".toLower = "nope" := by
      decide +kernel
    simp [Node.mixedCase, Node.otherCase, Node.root, Node.function, Node.word, Node.number,
      Node.paren, Node.lowered, Node.loweredAll, Node.Head.lowered, isCustomProperty, htexts]
  obtain ⟨-, hdiagnostics, -, hsame⟩ := walk_letterCase hlowered ctx
  exact ⟨hsame (by decide), hdiagnostics, by decide +kernel, by decide +kernel⟩

end ColorMod
