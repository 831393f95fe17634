import ColorMod.Resolution

/-!
# The meaning of a node from its arguments

`meaning` goes down the tree once, so whatever holds of a node when it holds of the children holds
of every node (`Node.induction_on_children`).  Beyond that a node is resolved, and applied as an
adjuster, by what its arguments mean.

* `resolveColor_eq`, `resolveColorMod_eq`, `applyAdjuster_eq`: each with `n.arguments.map meaning`.
-/

namespace ColorMod

namespace Node

mutual

/-- What holds of a node when it holds of the children holds of every node. -/
theorem induction_on_children {motive : Node → Prop}
    (step : ∀ n, (∀ m ∈ n.children, motive m) → motive n) : ∀ n, motive n
  | leaf h => step (leaf h) fun m hm => by simp [children] at hm
  | branch h cs => step (branch h cs) (forall_mem_of_step step cs)

theorem forall_mem_of_step {motive : Node → Prop}
    (step : ∀ n, (∀ m ∈ n.children, motive m) → motive n) :
    ∀ ns : List Node, ∀ m ∈ ns, motive m
  | [] => by simp
  | n :: ns => List.forall_mem_cons.mpr ⟨induction_on_children step n, forall_mem_of_step step ns⟩

end

theorem mem_of_mem_inner {β : Type} {x : β} {xs : List β} (h : x ∈ inner xs) : x ∈ xs :=
  List.mem_of_mem_tail (List.dropLast_subset _ h)

theorem map_inner {β γ : Type} (f : β → γ) (xs : List β) : inner (xs.map f) = (inner xs).map f := by
  simp only [inner, List.map_dropLast, List.map_tail]

theorem components_eq_map (ns : List Node) : components ns = ns.map fun n => (n.kind, n.render) := by
  induction ns with
  | nil => rfl
  | cons n ns ih => rw [components, ih, List.map_cons]

theorem render_eq (n : Node) :
    n.render = assembled n.head (n.children.map fun c => (c.kind, c.render)) := by
  cases n with
  | leaf h => rw [render]; rfl
  | branch h cs => rw [render, components_eq_map]; rfl

theorem mem_children_of_mem_arguments {n m : Node} (h : m ∈ n.arguments) : m ∈ n.children :=
  mem_of_mem_inner (List.mem_filter.mp h).1

/-- What holds of a node when it holds of the arguments holds of every node. -/
theorem induction_on_arguments {motive : Node → Prop}
    (step : ∀ n, (∀ m ∈ n.arguments, motive m) → motive n) (n : Node) : motive n :=
  induction_on_children (fun n h => step n fun m hm => h m (mem_children_of_mem_arguments hm)) n

end Node

variable {α : Type} [Scalar α] [LightCurve α]

theorem meanings_eq_map (ns : List Node) : (meanings ns : List (Argument α)) = ns.map meaning := by
  induction ns with
  | nil => rfl
  | cons n ns ih => rw [meanings, ih, List.map_cons]

theorem meaning_eq (n : Node) : (meaning n : Argument α) = .ofNode n (n.children.map meaning) := by
  cases n with
  | leaf h => rw [meaning]; rfl
  | branch h cs => rw [meaning, meanings_eq_map]; rfl

@[simp] theorem meaning_node (n : Node) : (meaning n : Argument α).node = n := by
  rw [meaning_eq]; rfl

theorem ofChildren_map_meaning (n : Node) :
    Argument.ofChildren (n.children.map meaning) = (n.arguments.map meaning : List (Argument α)) := by
  simp only [Argument.ofChildren, Node.arguments, Node.map_inner, List.filter_map,
    Function.comp_def, meaning_node]

theorem argumentMeanings_eq (n : Node) :
    (argumentMeanings n : List (Argument α)) = n.arguments.map meaning := by
  rw [argumentMeanings, meanings_eq_map, ofChildren_map_meaning]

theorem resolveColor_eq (n : Node) (ctx : Context α) :
    resolveColor n ctx = resolveNode n (n.arguments.map meaning) ctx := by
  rw [resolveColor, meaning_eq, ← ofChildren_map_meaning]; rfl

theorem resolveColorMod_eq (n : Node) (ctx : Context α) :
    resolveColorMod n ctx = resolveCall n (n.arguments.map meaning) ctx := by
  rw [resolveColorMod, argumentMeanings_eq]

theorem applyAdjuster_eq (c : Color α) (n : Node) (ctx : Context α) :
    applyAdjuster c n ctx = Adjuster.applyNode n (n.arguments.map meaning) c ctx := by
  rw [applyAdjuster, meaning_eq, ← ofChildren_map_meaning]; rfl

end ColorMod
