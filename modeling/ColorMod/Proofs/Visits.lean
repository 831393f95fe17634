import ColorMod.Proofs.Positions
import ColorMod.Proofs.Walks
import ColorMod.Scalar.Binary64

/-!
# What a walk does to a tree

A walk goes through the nodes outside of calls in preorder.  It resolves an outermost call at the
depth of its siblings, unless that is too deep, and complains of a node with children that is the
first on its way to be too deep (`Node.visits`).

* `walk_run_eq`: the run of a walk is that of these visits, one after the other.
* `leaves_of_walk`: what stands at each position after a walk that comes to its end.
* `walk_visits`: both, with the calls that a traversal with a stack comes to.
-/

namespace ColorMod

open Run

variable {α : Type}

/-! ## Visits -/

/-- What a walk does at a node. -/
inductive Visit where
  /-- Resolves a call at a depth. -/
  | call (call : Node) (depth : Nat)
  /-- Complains of a node. -/
  | tooDeep (node : Node)

/-- The context at another depth. -/
def Context.atDepth (ctx : Context α) (depth : Nat) : Context α :=
  { ctx with depth }

/-- What a walk does at a node outside of calls that is so many levels below the root.  The root
itself is walked over even if it is a call. -/
def Context.visit? (ctx : Context α) (levels : Nat) (n : Node) : Option Visit :=
  if levels ≠ 0 ∧ n.isCall then
    if (ctx.depth + (levels - 1 : Nat) : Int) ≤ ctx.maxDepth then
      some (.call n (ctx.depth + (levels - 1)))
    else none
  else if ¬n.children.isEmpty ∧ (ctx.depth + levels : Int) = ctx.maxDepth + 1 then
    some (.tooDeep n)
  else none

/-- What a walk does, in order. -/
def Node.visits (tree : Node) (ctx : Context α) : List Visit :=
  tree.outside.filterMap fun p => ctx.visit? p.1.length p.2

/-- The part of it from a child on. -/
def Node.visitsFrom (c : Node) (ctx : Context α) : List Visit :=
  c.outsideFrom.filterMap fun p => ctx.visit? (p.1.length + 1) p.2

namespace Visit

/-- The call that is resolved, with its depth. -/
def call? : Visit → Option (Node × Nat)
  | call c depth => some (c, depth)
  | tooDeep _ => none

/-- The node that is complained of. -/
def tooDeep? : Visit → Option Node
  | call .. => none
  | tooDeep n => some n

variable [Scalar α] [LightCurve α]

/-- A visit resolves the call and puts the color in its place, or makes its complaint. -/
def run (ctx : Context α) : Visit → Run α Unit
  | call c depth => (replaceCall c (ctx.atDepth depth)).bind fun _ => pure ()
  | tooDeep n => (ctx.report n n.outline .tooDeep).bind fun _ => pure ()

theorem run_descend (ctx : Context α) (v : Visit) : v.run ctx.descend = v.run ctx := by
  cases v <;> rfl

end Visit

theorem Context.tooDeep_iff (ctx : Context α) : ctx.tooDeep ↔ ctx.maxDepth < ctx.depth := by
  simp [Context.tooDeep]

/-- The calls that are resolved are the outermost ones that are not too deep. -/
theorem filterMap_call?_visits (tree : Node) (ctx : Context α) :
    (tree.visits ctx).filterMap Visit.call? =
      ((Node.callsOnStack [tree.children]).filter
        fun c => (ctx.depth + c.2 : Int) ≤ ctx.maxDepth).map fun c => (c.1, ctx.depth + c.2) := by
  rw [Node.callsOnStack_eq, Node.visits, List.filterMap_filterMap, List.filter_filterMap,
    List.map_filterMap]
  refine List.filterMap_congr fun p _ => ?_
  have hroot : p.1.length ≠ 0 ↔ p.1 ≠ [] := not_congr List.length_eq_zero_iff
  by_cases hcall : p.1 ≠ [] ∧ p.2.isCall
  · by_cases hdepth : (ctx.depth + (p.1.length - 1 : Nat) : Int) ≤ ctx.maxDepth
    · simp [Context.visit?, hcall, hdepth, Visit.call?, Option.filter_some]
    · simp [Context.visit?, hcall, hdepth, Option.filter_some]
  · have hlevels : ¬(p.1.length ≠ 0 ∧ p.2.isCall) := by rwa [hroot]
    rw [Context.visit?, if_neg hlevels, if_neg hcall]
    split <;> rfl

/-- The nodes that are complained of are those outside of calls at which the depth goes over the
limit, if there is anything below them. -/
theorem filterMap_tooDeep?_visits (tree : Node) (ctx : Context α) :
    (tree.visits ctx).filterMap Visit.tooDeep? =
      (tree.outside.filter fun p => ¬(p.1 ≠ [] ∧ p.2.isCall) ∧ ¬p.2.children.isEmpty ∧
        (ctx.depth + p.1.length : Int) = ctx.maxDepth + 1).map Prod.snd := by
  rw [Node.visits, List.filterMap_filterMap, ← List.filterMap_eq_map, List.filterMap_filter]
  refine List.filterMap_congr fun p _ => ?_
  have hroot : p.1.length ≠ 0 ↔ p.1 ≠ [] := not_congr List.length_eq_zero_iff
  simp only [Context.visit?, hroot, decide_eq_true_eq]
  by_cases hcall : p.1 ≠ [] ∧ p.2.isCall
  · rw [if_pos hcall, if_neg (c := ¬(p.1 ≠ [] ∧ p.2.isCall) ∧ _) fun h => h.1 hcall]
    split <;> rfl
  · rw [if_neg hcall]
    by_cases hdeep : ¬p.2.children.isEmpty ∧ (ctx.depth + p.1.length : Int) = ctx.maxDepth + 1
    · rw [if_pos hdeep, if_pos ⟨hcall, hdeep⟩]
      rfl
    · rw [if_neg hdeep, if_neg fun h => hdeep h.2]
      rfl

/-! ## The run of a walk -/

section

variable {ctx : Context α} {n c : Node}

theorem visits_eq (n : Node) (ctx : Context α) :
    n.visits ctx = (ctx.visit? 0 n).toList ++ n.children.flatMap fun c => c.visitsFrom ctx := by
  rw [Node.visits, Node.outside_eq, List.filterMap_cons, Node.filterMap_outsideAmong]
  simp only [List.length_nil]
  cases ctx.visit? 0 n <;> rfl

/-- Below a node that is too deep nothing is done. -/
theorem visit?_of_lt {levels : Nat} (hlevels : levels ≠ 0) (hdeep : ctx.maxDepth < ctx.depth)
    (m : Node) : ctx.visit? levels m = none := by
  unfold Context.visit?
  split
  · rw [if_neg (by omega)]
  · exact if_neg fun h => by omega

theorem visits_of_tooDeep (hdepth : ctx.depth ≤ ctx.maxDepth + 1) (hdeep : ctx.tooDeep)
    (hn : ¬n.children.isEmpty) : n.visits ctx = [.tooDeep n] := by
  rw [ctx.tooDeep_iff] at hdeep
  have hroot : ctx.visit? 0 n = some (.tooDeep n) := by
    unfold Context.visit?
    rw [if_neg (by simp), if_pos ⟨hn, by omega⟩]
  have hbelow : ∀ c ∈ n.children, c.visitsFrom ctx = [] := by
    intro c _
    simp [Node.visitsFrom, visit?_of_lt (Nat.succ_ne_zero _) hdeep]
  rw [visits_eq, hroot, List.flatMap_eq_nil_iff.mpr hbelow]
  rfl

/-- At the root nothing is done, unless it is too deep. -/
theorem visit?_root (hdeep : ¬ctx.tooDeep) : ctx.visit? 0 n = none := by
  rw [ctx.tooDeep_iff] at hdeep
  unfold Context.visit?
  rw [if_neg (by simp), if_neg fun h => by omega]

theorem visits_of_not_tooDeep (hdeep : ¬ctx.tooDeep) :
    n.visits ctx = n.children.flatMap fun c => c.visitsFrom ctx := by
  rw [visits_eq, visit?_root hdeep]
  rfl

theorem visits_of_isEmpty (hn : n.children.isEmpty) : n.visits ctx = [] := by
  rw [visits_eq, List.isEmpty_iff.mp hn]
  simp [Context.visit?, hn]

theorem visitsFrom_of_isCall (hdeep : ¬ctx.tooDeep) (hcall : c.isCall) :
    c.visitsFrom ctx = [.call c ctx.depth] := by
  rw [ctx.tooDeep_iff] at hdeep
  simp [Node.visitsFrom, Node.outsideFrom, hcall, Context.visit?, Int.not_lt.mp hdeep]

/-- One level down the same node is one level less below the root. -/
theorem visit?_descend {levels : Nat} (hroot : levels = 0 → ¬c.isCall) :
    ctx.descend.visit? levels c = ctx.visit? (levels + 1) c := by
  cases levels with
  | zero => simp [Context.visit?, hroot rfl, Context.descend]
  | succ levels =>
    simp [Context.visit?, Context.descend, Nat.add_assoc, Nat.add_comm 1, Int.add_assoc,
      Int.add_comm 1]

/-- The first place on from a node that is no call is that node. -/
theorem not_isCall_of_mem_outside {path : List Nat} {m : Node} (hcall : ¬c.isCall)
    (hm : (path, m) ∈ c.outside) (hpath : path.length = 0) : ¬m.isCall := by
  rw [List.length_eq_zero_iff] at hpath
  subst hpath
  rwa [Node.mem_outside_nil.mp hm]

theorem visitsFrom_of_not_isCall (hcall : ¬c.isCall) : c.visitsFrom ctx = c.visits ctx.descend := by
  rw [Node.visitsFrom, Node.outsideFrom, if_neg hcall, Node.visits]
  exact List.filterMap_congr fun p hp =>
    (visit?_descend (not_isCall_of_mem_outside hcall hp)).symm

variable [Scalar α] [LightCurve α]

theorem walkChild_run_eq (hdeep : ¬ctx.tooDeep)
    (hc : ¬c.children.isEmpty →
      (walk c ctx.descend).run = forM (c.visits ctx.descend) (Visit.run ctx.descend)) :
    (walkChild ctx c).run = forM (c.visitsFrom ctx) (Visit.run ctx) := by
  rw [walkChild]
  by_cases hcall : c.isCall
  · rw [if_pos hcall, visitsFrom_of_isCall hdeep hcall, List.forM_cons, List.forM_nil]
    exact (bind_pure _).symm
  · rw [if_neg hcall, visitsFrom_of_not_isCall hcall]
    split
    · next hempty =>
      rw [visits_of_isEmpty hempty]
      rfl
    · next hchildren =>
      rw [hc hchildren]
      exact congrArg (forM (c.visits ctx.descend)) (funext (Visit.run_descend ctx))

theorem each_walkChild_run_eq {cs : List Node}
    (hcs : ∀ c ∈ cs, (walkChild ctx c).run = forM (c.visitsFrom ctx) (Visit.run ctx)) :
    (Walked.each (walkChild ctx) cs).run =
      forM (cs.flatMap fun c => c.visitsFrom ctx) (Visit.run ctx) := by
  induction cs with
  | nil => rfl
  | cons c cs ih =>
    obtain ⟨hc, hcs⟩ := List.forall_mem_cons.mp hcs
    rw [Walked.each, Walked.cons_run, hc, ih hcs, List.flatMap_cons, List.forM_append]

/-- The run of a walk is that of its visits, one after the other. -/
theorem walk_run_eq (n : Node) : ∀ ctx : Context α, ctx.depth ≤ ctx.maxDepth + 1 →
    (ctx.tooDeep → ¬n.children.isEmpty) →
    (walk n ctx).run = forM (n.visits ctx) (Visit.run ctx) := by
  induction n using Node.induction_on_children with
  | step n ih =>
    intro ctx hdepth hn
    by_cases hdeep : ctx.tooDeep
    · rw [walk_of_tooDeep ctx n hdeep, visits_of_tooDeep hdepth hdeep (hn hdeep), List.forM_cons,
        List.forM_nil]
      exact (bind_pure _).symm
    · rw [visits_of_not_tooDeep hdeep]
      cases n with
      | leaf h =>
        rw [walk_leaf ctx h hdeep]
        rfl
      | branch h cs =>
        rw [walk_branch ctx h cs hdeep, walkAll_eq_each]
        refine each_walkChild_run_eq fun c hc => walkChild_run_eq hdeep fun hchildren => ?_
        refine ih c hc ctx.descend ?_ fun _ => hchildren
        rw [ctx.tooDeep_iff] at hdeep
        simp only [Context.descend]
        omega

end

/-! ## The tree after a walk -/

variable [Scalar α] [LightCurve α]

/-- What a walk without a fault makes of a node outside of calls that is so many levels below the
root. -/
structure Context.Leaves (ctx : Context α) (levels : Nat) (n n' : Node) : Prop where
  /-- A call is resolved at the depth of its siblings. -/
  call : levels ≠ 0 → n.isCall → (ctx.depth + (levels - 1 : Nat) : Int) ≤ ctx.maxDepth →
    (ctx.atDepth (ctx.depth + (levels - 1))).Replaces n n'
  /-- A call that is too deep stays. -/
  deepCall : levels ≠ 0 → n.isCall → ctx.maxDepth < (ctx.depth + (levels - 1 : Nat) : Int) → n' = n
  /-- Any other node keeps what it says and how many children it has. -/
  other : levels = 0 ∨ ¬n.isCall →
    n'.head = n.head ∧ n'.isBranch = n.isBranch ∧ n'.children.length = n.children.length

section

variable {ctx : Context α} {n c m m' : Node}

/-- A node at which no call is resolved may stay as it is. -/
theorem Context.Leaves.same {levels : Nat}
    (h : levels ≠ 0 → n.isCall → ctx.maxDepth < (ctx.depth + (levels - 1 : Nat) : Int)) :
    ctx.Leaves levels n n where
  call hlevels hcall hdepth := absurd hdepth (Int.not_le.mpr (h hlevels hcall))
  deepCall _ _ _ := rfl
  other _ := ⟨rfl, rfl, rfl⟩

/-- One level down a node is one level less below the root. -/
theorem Context.Leaves.of_descend {levels : Nat} (h : ctx.descend.Leaves levels m m')
    (hroot : levels = 0 → ¬m.isCall) : ctx.Leaves (levels + 1) m m' where
  call _ hcall hdepth := by
    have hlevels : levels ≠ 0 := fun h => hroot h hcall
    have hnat : ctx.descend.depth + (levels - 1) = ctx.depth + (levels + 1 - 1) := by
      simp only [Context.descend]
      omega
    have hcall := h.call hlevels hcall (by simp only [Context.descend]; omega)
    rwa [hnat] at hcall
  deepCall _ hcall hdepth :=
    h.deepCall (fun h => hroot h hcall) hcall (by simp only [Context.descend]; omega)
  other hother := h.other (.inr (hother.resolve_left (Nat.succ_ne_zero _)))

theorem leaves_of_walkChild {path : List Nat} (hdeep : ¬ctx.tooDeep)
    (hok : (walkChild ctx c).run.outcome = .ok ()) (hat : c.at? path = some m)
    (hout : ¬(c.isCall ∧ path ≠ [] ∨ c.InsideCall path))
    (hwalk : (walk c ctx.descend).run.outcome = .ok () →
      ∃ m', (walk c ctx.descend).result.at? path = some m' ∧ ctx.descend.Leaves path.length m m') :
    ∃ m', (walkChild ctx c).result.at? path = some m' ∧ ctx.Leaves (path.length + 1) m m' := by
  rw [ctx.tooDeep_iff] at hdeep
  by_cases hcall : c.isCall
  · have hpath : path = [] := Decidable.not_not.mp fun h => hout (.inl ⟨hcall, h⟩)
    subst hpath
    cases hat
    simp only [walkChild, hcall, if_true] at hok ⊢
    obtain ⟨r, hr, -⟩ := outcome_bind_eq_ok_iff.mp hok
    refine ⟨r, by rw [walkCall, hr]; rfl, {
      call := fun _ _ _ => replaces_of_replaceCall hr
      deepCall := fun _ _ h => absurd h (by simpa using hdeep)
      other := fun h => absurd hcall (h.resolve_left (Nat.succ_ne_zero _)) }⟩
  have hroot : path.length = 0 → ¬m.isCall := by
    intro hpath
    rw [List.length_eq_zero_iff.mp hpath] at hat
    cases hat
    exact hcall
  by_cases hempty : c.children.isEmpty
  · simp only [walkChild, hcall, hempty, if_true]
    cases path with
    | nil => exact ⟨m, hat, .same fun _ h => absurd h (hroot rfl)⟩
    | cons i path =>
      obtain ⟨d, hd, -⟩ := Node.at?_cons.mp hat
      simp [List.isEmpty_iff.mp hempty] at hd
  · simp only [walkChild, hcall, hempty] at hok ⊢
    obtain ⟨m', hat', hm'⟩ := hwalk hok
    exact ⟨m', hat', hm'.of_descend hroot⟩

theorem leaves_root (n : Node) (ctx : Context α) : ctx.Leaves 0 n (walk n ctx).result where
  call h := absurd rfl h
  deepCall h := absurd rfl h
  other _ := ⟨head_walk n ctx, isBranch_walk n ctx, length_children_walk n ctx⟩

/-- A walk without a fault leaves at each position outside of calls what it makes of the node
there. -/
theorem leaves_of_walk (n : Node) : ∀ (ctx : Context α) (path : List Nat) (m : Node),
    (walk n ctx).run.outcome = .ok () → n.at? path = some m → ¬n.InsideCall path →
    ∃ m', (walk n ctx).result.at? path = some m' ∧ ctx.Leaves path.length m m' := by
  induction n using Node.induction_on_children with
  | step n ih =>
    intro ctx path m hok hat hout
    by_cases hdeep : ctx.tooDeep
    · rw [walk_of_tooDeep ctx n hdeep]
      rw [ctx.tooDeep_iff] at hdeep
      exact ⟨m, hat, .same fun _ _ => by omega⟩
    cases path with
    | nil =>
      cases hat
      exact ⟨_, rfl, leaves_root n ctx⟩
    | cons i path =>
      obtain ⟨c, hc, hatc⟩ := Node.at?_cons.mp hat
      have houtc : ¬(c.isCall ∧ path ≠ [] ∨ c.InsideCall path) :=
        fun h => hout (Node.insideCall_cons.mpr ⟨c, hc, h⟩)
      cases n with
      | leaf h => simp [Node.children] at hc
      | branch h cs =>
        rw [walk_branch ctx h cs hdeep, walkAll_eq_each] at hok ⊢
        have hmem : c ∈ cs := List.mem_of_getElem? hc
        have hc' : (Walked.each (walkChild ctx) cs).result[i]? = some (walkChild ctx c).result := by
          rw [Walked.each_result_of_ok hok, List.getElem?_map]
          exact congrArg (Option.map fun c => (walkChild ctx c).result) hc
        obtain ⟨m', hat', hm'⟩ := leaves_of_walkChild hdeep (Walked.outcome_of_each hok c hmem)
          hatc houtc fun hokc => ih c hmem ctx.descend path m hokc hatc fun h => houtc (.inr h)
        exact ⟨m', Node.at?_cons.mpr ⟨_, hc', hat'⟩, hm'⟩

/-- A walk that comes to its end makes these visits and leaves this tree.  The calls that it
resolves are those that the traversal with a stack comes to and that are not too deep, in the same
order, and it complains of the nodes at which the depth goes over the limit.  All of this is in
preorder. -/
theorem walk_visits (tree : Node) (ctx : Context α) (hdepth : ctx.depth ≤ ctx.maxDepth)
    (hok : (walk tree ctx).run.outcome = .ok ()) :
    (∀ path n, (path, n) ∈ tree.outside ↔ tree.at? path = some n ∧ ¬tree.InsideCall path) ∧
    (tree.outside.map Prod.fst).Pairwise (· < ·) ∧
    (Node.callsOnStack [tree.children]).map Prod.fst = tree.callsBelow ∧
    Node.callsOnStack [tree.children] = (tree.outside.filterMap fun p =>
      if p.1 ≠ [] ∧ p.2.isCall then some (p.2, p.1.length - 1) else none) ∧
    (walk tree ctx).run = forM (tree.visits ctx) (Visit.run ctx) ∧
    (tree.visits ctx).filterMap Visit.call? =
      ((Node.callsOnStack [tree.children]).filter
        fun c => (ctx.depth + c.2 : Int) ≤ ctx.maxDepth).map (fun c => (c.1, ctx.depth + c.2)) ∧
    (tree.visits ctx).filterMap Visit.tooDeep? =
      (tree.outside.filter fun p => ¬(p.1 ≠ [] ∧ p.2.isCall) ∧ ¬p.2.children.isEmpty ∧
        (ctx.depth + p.1.length : Int) = ctx.maxDepth + 1).map Prod.snd ∧
    ∀ path n, tree.at? path = some n → ¬tree.InsideCall path →
      ∃ n', (walk tree ctx).result.at? path = some n' ∧ ctx.Leaves path.length n n' :=
  have hdeep : ctx.tooDeep → ¬tree.children.isEmpty :=
    fun h => absurd (ctx.tooDeep_iff.mp h) (by omega)
  ⟨fun _ _ => Node.mem_outside_iff, tree.pairwise_outside, tree.map_callsOnStack,
    tree.callsOnStack_eq, walk_run_eq tree ctx (by omega) hdeep, filterMap_call?_visits tree ctx,
    filterMap_tooDeep?_visits tree ctx, fun path n => leaves_of_walk tree ctx path n hok⟩

end

/-- `calc(color-mod(red)) calc(calc(calc(color-mod(blue))))` -/
def Node.redAndDeepBlue : Node :=
  .root [.function "calc" [.function colorModName [.word "red"]],
    .function "calc" [.function "calc" [.function "calc" [.function colorModName [.word "blue"]]]]]

/-- With the limit 2 the first call is resolved at depth 1, and the innermost `calc` is too deep. -/
theorem walk_visits_redAndDeepBlue :
    let tree := Node.redAndDeepBlue
    let ctx : Context Float := { policy := .warn, format := .legacy, maxDepth := 2, cutoff := 75 }
    ctx.depth ≤ ctx.maxDepth ∧ (walk tree ctx).run.outcome = .ok () ∧
    (((Node.callsOnStack [tree.children]).filter
      fun c => (ctx.depth + c.2 : Int) ≤ ctx.maxDepth).map fun c => (c.1.render, ctx.depth + c.2)) =
        [("color-mod(red)", 1)] ∧
    ((tree.visits ctx).filterMap Visit.tooDeep?).map Node.render = ["calc(color-mod(blue))"] ∧
    (walk tree ctx).result.render = "calc(rgb(255, 0, 0)) calc(calc(calc(color-mod(blue))))" := by
  intro tree ctx
  have hdepth : ctx.depth ≤ ctx.maxDepth := by decide
  have hok : (walk tree ctx).run.outcome = .ok () := by
    have hisOk : (walk tree ctx).run.outcome.isOk := by decide +kernel
    cases h : (walk tree ctx).run.outcome with
    | ok u => rfl
    | error fault => rw [h] at hisOk; cases hisOk
  obtain ⟨-, -, -, -, -, hcalls, -⟩ := walk_visits tree ctx hdepth hok
  have hrendered := congrArg (List.map fun c => (c.1.render, c.2)) hcalls
  rw [List.map_map] at hrendered
  refine ⟨hdepth, hok, hrendered.symm.trans ?_, ?_, ?_⟩ <;> decide +kernel

end ColorMod
