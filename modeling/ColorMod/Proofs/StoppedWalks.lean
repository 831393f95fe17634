import ColorMod.Proofs.Visits

/-!
# Walks that stop at a fault

A walk with a fault comes to it at one place, a call or a node that is too deep.  The tree is then a
clean prefix of the rewritten one: the places before it, in preorder, are what a whole walk makes of
them, and everything from it on is as it was (`Context.Stops`).

* `Context.Stops.of_child`: the place of a fault in a child is one in the node.
* `exists_stops_of_walk`: the place of the fault, by induction over the tree.
* `walk_stops`: the tree that a fault leaves, in terms of positions.
-/

namespace ColorMod

open Run

variable {α : Type}

theorem Run.outcome_of_forM {β : Type} {f : β → Run α Unit} {bs : List β} {u : Unit}
    (h : (forM bs f).outcome = .ok u) : ∀ b ∈ bs, (f b).outcome = .ok () := by
  induction bs with
  | nil => simp
  | cons b bs ih =>
    rw [List.forM_cons] at h
    obtain ⟨v, hv, hbs⟩ := outcome_bind_eq_ok_iff.mp h
    exact List.forall_mem_cons.mpr ⟨hv, ih hbs⟩

/-! ## Steps -/

/-- What a walk does at a node, wherever the walk starts: of a root that is too deep it complains,
and then it does nothing else. -/
def Context.step? (ctx : Context α) (levels : Nat) (n : Node) : Option Visit :=
  if ctx.tooDeep then
    if levels = 0 then some (.tooDeep n) else none
  else ctx.visit? levels n

section

variable {ctx : Context α} {n c m : Node} {fault : Fault}

theorem step?_of_tooDeep (hdeep : ctx.tooDeep) (n : Node) :
    ctx.step? 0 n = some (.tooDeep n) := by
  rw [Context.step?, if_pos hdeep, if_pos rfl]

theorem step?_of_not_tooDeep (hdeep : ¬ctx.tooDeep) (levels : Nat) (n : Node) :
    ctx.step? levels n = ctx.visit? levels n := by
  rw [Context.step?, if_neg hdeep]

/-- One level down the same node is one level less below the root, also when that level is the
first that is too deep. -/
theorem step?_descend {levels : Nat} (hdeep : ¬ctx.tooDeep)
    (hroot : levels = 0 → ¬m.isCall ∧ ¬m.children.isEmpty) :
    ctx.descend.step? levels m = ctx.step? (levels + 1) m := by
  rw [step?_of_not_tooDeep hdeep]
  by_cases hbelow : ctx.descend.tooDeep
  · have hdepth : ctx.maxDepth < (ctx.depth + 1 : Nat) := ctx.descend.tooDeep_iff.mp hbelow
    rw [ctx.tooDeep_iff] at hdeep
    cases levels with
    | zero =>
      rw [step?_of_tooDeep hbelow, Context.visit?, if_neg fun h => (hroot rfl).1 h.2,
        if_pos ⟨(hroot rfl).2, by omega⟩]
    | succ levels =>
      rw [Context.step?, if_pos hbelow, if_neg (Nat.succ_ne_zero _), Context.visit?]
      split
      · exact (if_neg (by omega)).symm
      · exact (if_neg fun h => by omega).symm
  · rw [step?_of_not_tooDeep hbelow]
    exact visit?_descend fun h => (hroot h).1

variable [Scalar α] [LightCurve α]

/-! ## The place of a fault -/

/-- A walk over a node `n` that leaves `r` stops at a place.  The places are those outside of calls
from `n` on, and `n` itself is so many levels below the root. -/
structure Context.Stops (ctx : Context α) (levels : Nat) (places : List (List Nat × Node))
    (n r : Node) (fault : Fault) (stop : List Nat) : Prop where
  /-- What is done there has the fault. -/
  fails : ∃ m v, (stop, m) ∈ places ∧ ctx.step? (levels + stop.length) m = some v ∧
    (v.run ctx).outcome = .error fault
  /-- What comes before is done. -/
  before : ∀ path m, (path, m) ∈ places → path < stop →
    (∀ v, ctx.step? (levels + path.length) m = some v → (v.run ctx).outcome = .ok ()) ∧
    ∃ m', r.at? path = some m' ∧ ctx.Leaves (levels + path.length) m m'
  /-- Everything else is as it was. -/
  after : ∀ path, ¬path < stop → r.at? path = n.at? path

/-- A child that is walked over without a fault is done at each place. -/
theorem done_of_walkChild (hdeep : ¬ctx.tooDeep) (hok : (walkChild ctx c).run.outcome = .ok ())
    {path : List Nat} (hm : (path, m) ∈ c.outsideFrom) :
    (∀ v, ctx.step? (path.length + 1) m = some v → (v.run ctx).outcome = .ok ()) ∧
      ∃ m', (walkChild ctx c).result.at? path = some m' ∧ ctx.Leaves (path.length + 1) m m' := by
  constructor
  · intro v hv
    rw [step?_of_not_tooDeep hdeep] at hv
    have hrun : (walkChild ctx c).run = forM (c.visitsFrom ctx) (Visit.run ctx) := by
      refine walkChild_run_eq hdeep fun hchildren => walk_run_eq c ctx.descend ?_ fun _ => hchildren
      rw [ctx.tooDeep_iff] at hdeep
      simp only [Context.descend]
      omega
    rw [hrun] at hok
    exact outcome_of_forM hok v (List.mem_filterMap.mpr ⟨(path, m), hm, hv⟩)
  · obtain ⟨hat, hout⟩ := (Node.mem_outsideFrom_iff Node.mem_outside_iff).mp hm
    exact leaves_of_walkChild hdeep hok hat hout fun hwalk =>
      leaves_of_walk c ctx.descend path m hwalk hat fun h => hout (.inr h)

/-- A call that has a fault stays as it is. -/
theorem stops_of_walkCall (hdeep : ¬ctx.tooDeep) (hcall : c.isCall)
    (herror : (walkCall c ctx).run.outcome = .error fault) :
    ctx.Stops 1 c.outsideFrom c (walkCall c ctx).result fault [] where
  fails := by
    have hdepth := hdeep
    rw [ctx.tooDeep_iff] at hdepth
    refine ⟨c, .call c ctx.depth, ?_, ?_, herror⟩
    · rw [Node.outsideFrom, if_pos hcall]
      exact List.mem_singleton_self _
    · rw [step?_of_not_tooDeep hdeep, Context.visit?, if_pos ⟨by simp, hcall⟩,
        if_pos (by simpa using Int.not_lt.mp hdepth)]
      rfl
  before path m _ hlt := absurd hlt (List.not_lt_nil path)
  after path _ := by
    have hsame : (walkCall c ctx).result = c := by
      refine (walkCall_result c ctx).resolve_right fun h => ?_
      rw [herror] at h
      cases h.1
    rw [hsame]

/-- The place where the walk over a child stops, seen from the level of the child. -/
theorem Context.Stops.of_descend {r : Node} {stop : List Nat} (hdeep : ¬ctx.tooDeep)
    (hcall : ¬c.isCall) (hchildren : ¬c.children.isEmpty)
    (h : ctx.descend.Stops 0 c.outside c r fault stop) :
    ctx.Stops 1 c.outsideFrom c r fault stop := by
  have hroot : ∀ {path : List Nat} {m : Node}, (path, m) ∈ c.outside →
      path.length = 0 → ¬m.isCall ∧ ¬m.children.isEmpty := by
    intro path m hm hpath
    rw [List.length_eq_zero_iff] at hpath
    subst hpath
    rw [Node.mem_outside_nil.mp hm]
    exact ⟨hcall, hchildren⟩
  rw [Node.outsideFrom, if_neg hcall]
  refine ⟨?_, fun path m hm hlt => ?_, h.after⟩
  · obtain ⟨m, v, hm, hv, herror⟩ := h.fails
    rw [Nat.zero_add, step?_descend hdeep (hroot hm)] at hv
    rw [Visit.run_descend] at herror
    exact ⟨m, v, hm, by rwa [Nat.add_comm], herror⟩
  · obtain ⟨hdone, m', hm', hleaves⟩ := h.before path m hm hlt
    rw [Nat.zero_add, step?_descend hdeep (hroot hm)] at hdone
    rw [Nat.zero_add] at hleaves
    rw [Nat.add_comm 1]
    refine ⟨fun v hv => ?_, m', hm', hleaves.of_descend fun hpath => (hroot hm hpath).1⟩
    rw [← Visit.run_descend]
    exact hdone v hv

/-- A child that is walked over with a fault is stopped at, or stopped in. -/
theorem exists_stops_of_walkChild (hdeep : ¬ctx.tooDeep)
    (herror : (walkChild ctx c).run.outcome = .error fault)
    (hwalk : (walk c ctx.descend).run.outcome = .error fault →
      ∃ stop, ctx.descend.Stops 0 c.outside c (walk c ctx.descend).result fault stop) :
    ∃ stop, ctx.Stops 1 c.outsideFrom c (walkChild ctx c).result fault stop := by
  by_cases hcall : c.isCall
  · simp only [walkChild, if_pos hcall] at herror ⊢
    exact ⟨[], stops_of_walkCall hdeep hcall herror⟩
  by_cases hempty : c.children.isEmpty
  · rw [walkChild, if_neg hcall, if_pos hempty] at herror
    cases herror
  · simp only [walkChild, if_neg hcall, if_neg hempty] at herror ⊢
    obtain ⟨stop, hstop⟩ := hwalk herror
    exact ⟨stop, hstop.of_descend hdeep hcall hempty⟩

/-- The place where the walk over a child stops, seen from the node: the children before are done,
and those after are as they were. -/
theorem Context.Stops.of_child {h : Node.Head} {cs left : List Node} {i : Nat} {stop : List Nat}
    (hdeep : ¬ctx.tooDeep) (hc : cs[i]? = some c)
    (hstop : ctx.Stops 1 c.outsideFrom c (walkChild ctx c).result fault stop)
    (hroot : ctx.Leaves 0 (.branch h cs) (.branch h left))
    (hresult : left[i]? = some (walkChild ctx c).result)
    (hbefore : ∀ j d, j < i → cs[j]? = some d →
      (walkChild ctx d).run.outcome = .ok () ∧ left[j]? = some (walkChild ctx d).result)
    (hafter : ∀ j, i < j → left[j]? = cs[j]?) :
    ctx.Stops 0 (Node.branch h cs).outside (.branch h cs) (.branch h left) fault (i :: stop) := by
  have hlevels : ∀ (j : Nat) (path : List Nat), 0 + (j :: path).length = 1 + path.length := by
    intro j path
    rw [List.length_cons]
    omega
  refine ⟨?fails, ?before, ?after⟩
  case fails =>
    obtain ⟨m, v, hm, hv, hfails⟩ := hstop.fails
    exact ⟨m, v, Node.mem_outside_cons.mpr ⟨c, hc, hm⟩, by rwa [hlevels], hfails⟩
  case before =>
    intro path m hm hlt
    cases path with
    | nil =>
      rw [Node.mem_outside_nil.mp hm]
      refine ⟨fun v hv => ?_, _, rfl, hroot⟩
      rw [step?_of_not_tooDeep hdeep, List.length_nil, visit?_root hdeep] at hv
      cases hv
    | cons j path =>
      obtain ⟨d, hd, hm⟩ := Node.mem_outside_cons.mp hm
      rw [hlevels]
      rcases List.cons_lt_cons_iff.mp hlt with hj | ⟨rfl, hlt'⟩
      · -- an earlier child, which is done as a whole
        obtain ⟨hok, hd'⟩ := hbefore j d hj hd
        obtain ⟨hdone, m', hm', hleaves⟩ := done_of_walkChild hdeep hok hm
        rw [Nat.add_comm 1]
        exact ⟨hdone, m', Node.at?_cons.mpr ⟨_, hd', hm'⟩, hleaves⟩
      · -- an earlier place in the same child
        cases hc.symm.trans hd
        obtain ⟨hdone, m', hm', hleaves⟩ := hstop.before path m hm hlt'
        exact ⟨hdone, m', Node.at?_cons.mpr ⟨_, hresult, hm'⟩, hleaves⟩
  case after =>
    intro path hlt
    cases path with
    | nil => exact absurd (List.nil_lt_cons i stop) hlt
    | cons j path =>
      rw [List.cons_lt_cons_iff, not_or, not_and] at hlt
      obtain ⟨hj, hpath⟩ := hlt
      rcases Nat.lt_or_eq_of_le (Nat.le_of_not_lt hj) with hlater | rfl
      · simp only [Node.at?, Node.children, hafter j hlater]
      · have hsame := hstop.after path (hpath rfl)
        simp only [Node.at?, Node.children, hresult, hc, Option.bind_some, hsame]

/-- The walk over a tree with a fault stops at some place. -/
theorem exists_stops_of_walk (n : Node) : ∀ ctx : Context α,
    (walk n ctx).run.outcome = .error fault →
    ∃ stop, ctx.Stops 0 n.outside n (walk n ctx).result fault stop := by
  induction n using Node.induction_on_children with
  | step n ih =>
    intro ctx herror
    by_cases hdeep : ctx.tooDeep
    · rw [walk_of_tooDeep ctx n hdeep] at herror ⊢
      exact ⟨[], ⟨n, _, Node.mem_outside_nil.mpr rfl, step?_of_tooDeep hdeep n, herror⟩,
        fun path _ _ hlt => absurd hlt (List.not_lt_nil path), fun _ _ => rfl⟩
    cases n with
    | leaf h =>
      rw [walk_leaf ctx h hdeep] at herror
      cases herror
    | branch h cs =>
      have hroot := leaves_root (.branch h cs) ctx
      rw [walk_branch ctx h cs hdeep, walkAll_eq_each] at herror hroot ⊢
      obtain ⟨i, c, hc, herrorc, hresult, hbefore, hafter⟩ := Walked.exists_fault_of_each herror
      obtain ⟨stop, hstop⟩ := exists_stops_of_walkChild hdeep herrorc
        (ih c (List.mem_of_getElem? hc) ctx.descend)
      exact ⟨i :: stop, hstop.of_child hdeep hc hroot hresult hbefore hafter⟩

/-- A walk that ends with a fault stops at one place outside of calls, a call that is resolved or a
node that is too deep.  What it does at the places before, in preorder, has no fault, and there the
tree is what the walk makes of it: a call that resolves is a word, any other call is as it was.
From that place on nothing is changed.  So each outermost call is as it was or a word. -/
theorem walk_stops (tree : Node) (ctx : Context α) (fault : Fault)
    (herror : (walk tree ctx).run.outcome = .error fault) :
    let left := (walk tree ctx).result
    (∃ stop n v, tree.at? stop = some n ∧ ¬tree.InsideCall stop ∧
      ctx.step? stop.length n = some v ∧ (v.run ctx).outcome = .error fault ∧
      (∀ path m, tree.at? path = some m → ¬tree.InsideCall path → path < stop →
        (∀ w, ctx.step? path.length m = some w → (w.run ctx).outcome = .ok ()) ∧
        ∃ m', left.at? path = some m' ∧ ctx.Leaves path.length m m') ∧
      ∀ path, ¬path < stop → left.at? path = tree.at? path) ∧
    ∀ path call, tree.at? path = some call → path ≠ [] → call.isCall → ¬tree.InsideCall path →
      left.at? path = some call ∨ ∃ text, left.at? path = some (.word text) := by
  intro left
  obtain ⟨stop, hstop⟩ := exists_stops_of_walk tree ctx herror
  have hbefore : ∀ path m, tree.at? path = some m → ¬tree.InsideCall path → path < stop →
      (∀ w, ctx.step? path.length m = some w → (w.run ctx).outcome = .ok ()) ∧
      ∃ m', left.at? path = some m' ∧ ctx.Leaves path.length m m' := by
    intro path m hat hout hlt
    have hdone := hstop.before path m (Node.mem_outside_iff.mpr ⟨hat, hout⟩) hlt
    rwa [Nat.zero_add] at hdone
  obtain ⟨n, v, hmem, hv, hfails⟩ := hstop.fails
  obtain ⟨hat, hout⟩ := Node.mem_outside_iff.mp hmem
  rw [Nat.zero_add] at hv
  refine ⟨⟨stop, n, v, hat, hout, hv, hfails, hbefore, hstop.after⟩, ?_⟩
  intro path call hat hpath hcall hout
  by_cases hlt : path < stop
  · obtain ⟨-, m', hm', hleaves⟩ := hbefore path call hat hout hlt
    have hlevels : path.length ≠ 0 := fun h => hpath (List.length_eq_zero_iff.mp h)
    rw [hm']
    rcases Int.lt_or_le ctx.maxDepth (ctx.depth + (path.length - 1 : Nat)) with hdepth | hdepth
    · exact .inl (congrArg some (hleaves.deepCall hlevels hcall hdepth))
    · cases hleaves.call hlevels hcall hdepth with
      | color => exact .inr ⟨_, rfl⟩
      | noColor => exact .inl rfl
  · exact .inl ((hstop.after path hlt).trans hat)

end

/-- `color-mod(red) calc(color-mod(blue) color-mod(nope)) color-mod(green)` -/
def Node.nopeBetween : Node :=
  .root [.function colorModName [.word "red"],
    .function "calc" [.function colorModName [.word "blue"], .function colorModName [.word "nope"]],
    .function colorModName [.word "green"]]

/-- The walk stops at the second call inside of `calc`, after two calls are replaced. -/
theorem walk_stops_nopeBetween :
    let ctx : Context Float := { policy := .raise, format := .legacy, maxDepth := 64, cutoff := 75 }
    ∃ fault, (walk Node.nopeBetween ctx).run.outcome = .error fault ∧
      (∃ stop n, Node.nopeBetween.at? stop = some n ∧
        ∀ path, ¬path < stop →
          (walk Node.nopeBetween ctx).result.at? path = Node.nopeBetween.at? path) ∧
      (walk Node.nopeBetween ctx).result.render =
        "rgb(255, 0, 0) calc(rgb(0, 0, 255) color-mod(nope)) color-mod(green)" := by
  intro ctx
  have hfails : ¬(walk Node.nopeBetween ctx).run.outcome.isOk := by decide +kernel
  cases herror : (walk Node.nopeBetween ctx).run.outcome with
  | ok u => rw [herror] at hfails; exact absurd rfl hfails
  | error fault =>
    obtain ⟨⟨stop, n, -, hat, -, -, -, -, hafter⟩, -⟩ := walk_stops Node.nopeBetween ctx fault herror
    exact ⟨fault, rfl, ⟨stop, n, hat, hafter⟩, by decide +kernel⟩

end ColorMod
