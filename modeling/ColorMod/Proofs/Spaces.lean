import ColorMod.Proofs.Meanings

/-!
# Trees with and without spaces

A space may stand between the parentheses of a function and among the children of a root, and in no
other place of a tree whose containers are these (`Node.Delimited`, `Node.DelimitedRoot`).  Such a
tree says the same without its spaces (`Node.unspaced`).

* `Node.unspacedAll_eq_map`, `Node.head_unspaced`: what is left of nodes and what they say.
* `Node.Delimited.arguments_unspaced`: the arguments of a function.
* `Node.DelimitedRoot.render_unspaced`: the text.
-/

namespace ColorMod

namespace Node

/-! ## Without spaces -/

mutual

/-- The node without the spaces in it. -/
def unspaced : Node → Node
  | leaf h => leaf h
  | branch h cs => branch h (unspacedAll cs)

/-- The nodes without spaces among them and in them. -/
def unspacedAll : List Node → List Node
  | [] => []
  | c :: cs => if c.kind = .space then unspacedAll cs else c.unspaced :: unspacedAll cs

end

theorem unspacedAll_cons_space {c : Node} (h : c.kind = .space) (cs : List Node) :
    unspacedAll (c :: cs) = unspacedAll cs := by
  rw [unspacedAll, if_pos h]

theorem unspacedAll_cons {c : Node} (h : c.kind ≠ .space) (cs : List Node) :
    unspacedAll (c :: cs) = c.unspaced :: unspacedAll cs := by
  rw [unspacedAll, if_neg h]

theorem unspacedAll_eq_map (cs : List Node) :
    unspacedAll cs = (cs.filter fun c => c.kind != .space).map unspaced := by
  induction cs with
  | nil => rfl
  | cons c cs ih =>
    by_cases h : c.kind = .space
    · rw [unspacedAll_cons_space h, ih, List.filter_cons_of_neg (by simp [h])]
    · rw [unspacedAll_cons h, ih, List.filter_cons_of_pos (by simp [h]), List.map_cons]

theorem unspacedAll_append (cs ds : List Node) :
    unspacedAll (cs ++ ds) = unspacedAll cs ++ unspacedAll ds := by
  simp only [unspacedAll_eq_map, List.filter_append, List.map_append]

/-- Parentheses stay. -/
theorem unspacedAll_parens (args : List Node) :
    unspacedAll (paren "(" :: args ++ [paren ")"]) =
      paren "(" :: unspacedAll args ++ [paren ")"] := by
  rw [List.cons_append, unspacedAll_cons (by decide), unspacedAll_append]
  rfl

section

variable (n : Node)

@[simp] theorem head_unspaced : n.unspaced.head = n.head := by cases n <;> rfl

@[simp] theorem kind_unspaced : n.unspaced.kind = n.kind := congrArg Head.kind n.head_unspaced

@[simp] theorem value_unspaced : n.unspaced.value = n.value := congrArg Head.value n.head_unspaced

@[simp] theorem unit_unspaced : n.unspaced.unit = n.unit := congrArg Head.unit n.head_unspaced

@[simp] theorem isBranch_unspaced : n.unspaced.isBranch = n.isBranch := by cases n <;> rfl

@[simp] theorem name_unspaced : n.unspaced.name = n.name := congrArg Text.lower n.value_unspaced

@[simp] theorem isFunction_unspaced : n.unspaced.isFunction = n.isFunction := by
  simp only [isFunction, kind_unspaced]

@[simp] theorem isContainer_unspaced : n.unspaced.isContainer = n.isContainer := by
  simp only [isContainer, kind_unspaced, isBranch_unspaced]

@[simp] theorem isFunctionNamed_unspaced (names : List String) :
    n.unspaced.isFunctionNamed names = n.isFunctionNamed names := by
  simp only [isFunctionNamed, isFunction_unspaced, name_unspaced]

theorem children_unspaced : n.unspaced.children = unspacedAll n.children := by cases n <;> rfl

end

/-! ## Where spaces may stand -/

/-- A leaf, or a function with its parentheses around such nodes. -/
inductive Delimited : Node → Prop where
  | leaf (h : Head) : Delimited (leaf h)
  | function {h : Head} {args : List Node} (hkind : h.kind = .function)
      (hargs : ∀ a ∈ args, Delimited a) :
      Delimited (branch h (paren "(" :: args ++ [paren ")"]))

/-- A whole value: its containers are the root and functions with their parentheses. -/
inductive DelimitedRoot : Node → Prop where
  | root {h : Head} {cs : List Node} (hkind : h.kind = .value) (hcs : ∀ c ∈ cs, Delimited c) :
      DelimitedRoot (branch h cs)
  | delimited {n : Node} (hn : Delimited n) : DelimitedRoot n

theorem forall_mem_parens {P : Node → Prop} (hparen : ∀ text, P (paren text)) {args : List Node} :
    (∀ c ∈ paren "(" :: args ++ [paren ")"], P c) ↔ ∀ a ∈ args, P a := by
  simp only [List.cons_append, List.forall_mem_cons, List.forall_mem_append, hparen, true_and,
    List.not_mem_nil, false_imp_iff, implies_true, and_true]

@[simp] theorem delimited_leaf (h : Head) : (Node.leaf h).Delimited :=
  .leaf h

theorem forall_delimited_parens {args : List Node} :
    (∀ c ∈ paren "(" :: args ++ [paren ")"], c.Delimited) ↔ ∀ a ∈ args, a.Delimited :=
  forall_mem_parens fun _ => delimited_leaf _

theorem Delimited.children {n : Node} (hn : n.Delimited) : ∀ c ∈ n.children, c.Delimited := by
  cases hn with
  | leaf h => exact fun c hc => (by cases hc)
  | function hkind hargs => exact forall_delimited_parens.mpr hargs

@[simp] theorem delimited_function_iff {name : String} {args : List Node} :
    (Node.function name args).Delimited ↔ ∀ a ∈ args, a.Delimited :=
  ⟨fun hn => forall_delimited_parens.mp hn.children, .function rfl⟩

theorem DelimitedRoot.children {n : Node} (hn : n.DelimitedRoot) :
    ∀ c ∈ n.children, c.Delimited := by
  cases hn with
  | root hkind hcs => exact hcs
  | delimited hn => exact hn.children

/-- Only a leaf is a space. -/
theorem Delimited.eq_leaf {n : Node} (hn : n.Delimited) (h : n.kind ≠ .function) :
    n = .leaf n.head := by
  cases hn with
  | leaf head => rfl
  | function hkind hargs => exact absurd hkind h

theorem Delimited.eq_leaf_of_space {n : Node} (hn : n.Delimited) (h : n.kind = .space) :
    n = .leaf n.head :=
  hn.eq_leaf (by rw [h]; decide)

/-! ## Arguments -/

theorem inner_parens {β : Type} (x y : β) (xs : List β) : inner (x :: xs ++ [y]) = xs := by
  simp [inner]

/-- Without its outer spaces a function keeps its arguments. -/
theorem Delimited.inner_unspaced {n : Node} (hn : n.Delimited) :
    inner n.unspaced.children = unspacedAll (inner n.children) := by
  cases hn with
  | leaf h => rfl
  | function hkind hargs =>
    rw [children_unspaced]
    change inner (unspacedAll (paren "(" :: _ ++ [paren ")"])) =
      unspacedAll (inner (paren "(" :: _ ++ [paren ")"]))
    rw [unspacedAll_parens, inner_parens, inner_parens]

theorem filter_unspacedAll (cs : List Node) :
    (unspacedAll cs).filter (fun c => c.kind != .space) = unspacedAll cs := by
  rw [unspacedAll_eq_map, List.filter_map, List.filter_filter]
  simp

theorem Delimited.arguments_unspaced {n : Node} (hn : n.Delimited) :
    n.unspaced.arguments = n.arguments.map unspaced := by
  rw [arguments, hn.inner_unspaced, filter_unspacedAll, unspacedAll_eq_map, arguments]

theorem Delimited.of_mem_arguments {n m : Node} (hn : n.Delimited) (hm : m ∈ n.arguments) :
    m.Delimited :=
  hn.children m (mem_children_of_mem_arguments hm)

/-! ## Text -/

theorem components_unspacedAll {cs : List Node} (h : ∀ c ∈ cs, c.unspaced.render = c.render) :
    components (unspacedAll cs) = (components cs).filter fun c => c.1 != .space := by
  induction cs with
  | nil => rfl
  | cons c cs ih =>
    obtain ⟨hc, hcs⟩ := List.forall_mem_cons.mp h
    rw [components]
    by_cases hspace : c.kind = .space
    · rw [unspacedAll_cons_space hspace, ih hcs, List.filter_cons_of_neg (by simp [hspace])]
    · rw [unspacedAll_cons hspace, components, ih hcs, hc, kind_unspaced,
        List.filter_cons_of_pos (by simp [hspace])]

theorem joined_components_unspacedAll {cs : List Node}
    (h : ∀ c ∈ cs, c.unspaced.render = c.render) :
    joined (components (unspacedAll cs)) = joined (components cs) := by
  rw [components_unspacedAll h, joined, joined, List.filter_filter]
  simp only [Bool.and_self]

theorem render_parens {h : Head} (hkind : h.kind = .function) (args : List Node) :
    (branch h (paren "(" :: args ++ [paren ")"])).render =
      h.value ++ "(" ++ joined (components args) ++ ")" := by
  have hcomponents : components (paren "(" :: args ++ [paren ")"]) =
      (.paren, "(") :: components args ++ [(.paren, ")")] := by
    simp only [components_eq_map, List.cons_append, List.map_cons, List.map_append, List.map_nil]
    rfl
  rw [render, hcomponents, assembled, hkind]
  simp only [inner_parens, List.length_append, List.length_cons, List.length_nil]
  rw [if_pos (by omega)]

/-- The text of a node is the same without the spaces in it. -/
theorem Delimited.render_unspaced {n : Node} (hn : n.Delimited) : n.unspaced.render = n.render := by
  induction hn with
  | leaf h => rfl
  | function hkind _ ih =>
    rw [unspaced, unspacedAll_parens, render_parens hkind, render_parens hkind,
      joined_components_unspacedAll ih]

theorem DelimitedRoot.render_unspaced {n : Node} (hn : n.DelimitedRoot) :
    n.unspaced.render = n.render := by
  cases hn with
  | root hkind hcs =>
    rw [unspaced, render, render, assembled, assembled, hkind]
    exact joined_components_unspacedAll fun c hc => (hcs c hc).render_unspaced
  | delimited hn => exact hn.render_unspaced

theorem DelimitedRoot.outline_unspaced {n : Node} (hn : n.DelimitedRoot) :
    n.unspaced.outline = n.outline := by
  simp only [outline, isFunction_unspaced, isContainer_unspaced, value_unspaced, hn.render_unspaced]

theorem Delimited.outline_unspaced {n : Node} (hn : n.Delimited) : n.unspaced.outline = n.outline :=
  (DelimitedRoot.delimited hn).outline_unspaced

end Node

end ColorMod
