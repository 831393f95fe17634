import ColorMod.Variables
import ColorMod.Walk
import ColorMod.Proofs.Meanings
import Mathlib.Data.List.Basic

/-!
# Positions in a tree

A position says at each level which child to go down to, so its length is the depth of the node that
it leads to.  `Node.outside` lists the nodes that are inside of no call, the outermost calls among
them, with their positions.

* `mem_outside_iff`, `pairwise_outside`: these are the nodes that no call is above of, each one
  once, in preorder.
* `callsOnStack_eq`: a traversal with a stack of unfinished lists of siblings comes to the outermost
  calls in the same order, and the height of the stack tells the level of a call.
-/

namespace ColorMod

namespace Node

/-- The node at a position. -/
def at? (n : Node) : List Nat → Option Node
  | [] => some n
  | i :: path => n.children[i]?.bind fun c => c.at? path

theorem at?_cons {n : Node} {i : Nat} {path : List Nat} {m : Node} :
    n.at? (i :: path) = some m ↔ ∃ c, n.children[i]? = some c ∧ c.at? path = some m :=
  Option.bind_eq_some_iff

/-- Between the root and the position there is a call.  The root itself does not count. -/
def InsideCall (tree : Node) (path : List Nat) : Prop :=
  ∃ above below call, path = above ++ below ∧ above ≠ [] ∧ below ≠ [] ∧
    tree.at? above = some call ∧ call.isCall

mutual

/-- The nodes of a tree that are inside of no call, with their positions, in preorder. -/
def outside : Node → List (List Nat × Node)
  | leaf h => [([], leaf h)]
  | branch h cs => ([], branch h cs) :: outsideAmong 0 cs

/-- The same for siblings, of which the first is the child with the given number. -/
def outsideAmong : Nat → List Node → List (List Nat × Node)
  | _, [] => []
  | i, c :: cs =>
    (if c.isCall then [([], c)] else c.outside).map (fun p => (i :: p.1, p.2)) ++
      outsideAmong (i + 1) cs

end

/-- What is outside of calls from a child on, with the positions in the child. -/
def outsideFrom (c : Node) : List (List Nat × Node) :=
  if c.isCall then [([], c)] else c.outside

theorem outside_eq (n : Node) : n.outside = ([], n) :: outsideAmong 0 n.children := by
  cases n <;> rfl

theorem outsideAmong_cons (i : Nat) (c : Node) (cs : List Node) :
    outsideAmong i (c :: cs) =
      c.outsideFrom.map (fun p => (i :: p.1, p.2)) ++ outsideAmong (i + 1) cs := rfl

/-! ## Which nodes are outside -/

theorem not_insideCall_nil (n : Node) : ¬n.InsideCall [] := by
  rintro ⟨above, below, -, hpath, habove, -⟩
  exact habove (List.append_eq_nil_iff.mp hpath.symm).1

theorem insideCall_cons {n : Node} {i : Nat} {path : List Nat} :
    n.InsideCall (i :: path) ↔
      ∃ c, n.children[i]? = some c ∧ (c.isCall ∧ path ≠ [] ∨ c.InsideCall path) := by
  constructor
  · rintro ⟨above, below, call, hpath, habove, hbelow, hat, hcall⟩
    obtain ⟨j, above, rfl⟩ := List.exists_cons_of_ne_nil habove
    obtain ⟨rfl, rfl⟩ := List.cons.inj hpath
    obtain ⟨c, hc, hat⟩ := at?_cons.mp hat
    refine ⟨c, hc, ?_⟩
    cases above with
    | nil =>
      cases hat
      exact .inl ⟨hcall, hbelow⟩
    | cons j above => exact .inr ⟨_, below, call, rfl, by simp, hbelow, hat, hcall⟩
  · rintro ⟨c, hc, ⟨hcall, hpath⟩ | ⟨above, below, call, rfl, habove, hbelow, hat, hcall⟩⟩
    · exact ⟨[i], path, c, rfl, by simp, hpath, at?_cons.mpr ⟨c, hc, rfl⟩, hcall⟩
    · exact ⟨i :: above, below, call, rfl, by simp, hbelow, at?_cons.mpr ⟨c, hc, hat⟩, hcall⟩

theorem mem_outsideAmong {k : Nat} {cs : List Node} {path : List Nat} {m : Node} :
    (path, m) ∈ outsideAmong k cs ↔
      ∃ i c rest, path = (k + i) :: rest ∧ cs[i]? = some c ∧ (rest, m) ∈ c.outsideFrom := by
  induction cs generalizing k with
  | nil => simp [outsideAmong]
  | cons c cs ih =>
    have hfirst : (path, m) ∈ c.outsideFrom.map (fun p => (k :: p.1, p.2)) ↔
        ∃ rest, path = k :: rest ∧ (rest, m) ∈ c.outsideFrom := by
      rw [List.mem_map]
      constructor
      · rintro ⟨⟨rest, _⟩, hmem, heq⟩
        cases heq
        exact ⟨rest, rfl, hmem⟩
      · rintro ⟨rest, rfl, hmem⟩
        exact ⟨(rest, m), hmem, rfl⟩
    rw [outsideAmong_cons, List.mem_append, hfirst, ih]
    constructor
    · rintro (⟨rest, rfl, h⟩ | ⟨i, d, rest, rfl, hd, h⟩)
      · exact ⟨0, c, rest, rfl, rfl, h⟩
      · exact ⟨i + 1, d, rest, by rw [Nat.add_right_comm, Nat.add_assoc], hd, h⟩
    · rintro ⟨i, d, rest, rfl, hd, h⟩
      cases i with
      | zero =>
        cases hd
        exact .inl ⟨rest, rfl, h⟩
      | succ i => exact .inr ⟨i, d, rest, by rw [Nat.add_right_comm, Nat.add_assoc], hd, h⟩

theorem mem_outside_cons {n : Node} {i : Nat} {path : List Nat} {m : Node} :
    (i :: path, m) ∈ n.outside ↔ ∃ c, n.children[i]? = some c ∧ (path, m) ∈ c.outsideFrom := by
  rw [outside_eq, List.mem_cons, mem_outsideAmong]
  constructor
  · rintro (h | ⟨j, c, rest, hpath, hc, h⟩)
    · cases h
    · obtain ⟨hij, rfl⟩ := List.cons.inj hpath
      rw [hij, Nat.zero_add]
      exact ⟨c, hc, h⟩
  · rintro ⟨c, hc, h⟩
    exact .inr ⟨i, c, path, by rw [Nat.zero_add], hc, h⟩

theorem mem_outside_nil {n m : Node} : ([], m) ∈ n.outside ↔ m = n := by
  rw [outside_eq, List.mem_cons, mem_outsideAmong]
  simp

/-- From a child on, what no call is above of is outside of calls; above what is below the child
there is also the child. -/
theorem mem_outsideFrom_iff {c : Node} {path : List Nat} {m : Node}
    (hc : (path, m) ∈ c.outside ↔ c.at? path = some m ∧ ¬c.InsideCall path) :
    (path, m) ∈ c.outsideFrom ↔
      c.at? path = some m ∧ ¬(c.isCall ∧ path ≠ [] ∨ c.InsideCall path) := by
  by_cases hcall : c.isCall
  · cases path with
    | nil => simp [outsideFrom, hcall, at?, not_insideCall_nil, eq_comm]
    | cons i path => simp [outsideFrom, hcall]
  · simp [outsideFrom, hcall, hc]

/-- What is outside of calls is what no call is above of. -/
theorem mem_outside_iff {n : Node} {path : List Nat} {m : Node} :
    (path, m) ∈ n.outside ↔ n.at? path = some m ∧ ¬n.InsideCall path := by
  induction n using Node.induction_on_children generalizing path with
  | step n ih =>
    cases path with
    | nil => simp [mem_outside_nil, at?, not_insideCall_nil, eq_comm]
    | cons i path =>
      rw [mem_outside_cons, at?_cons, insideCall_cons]
      constructor
      · rintro ⟨c, hc, hmem⟩
        obtain ⟨hat, hout⟩ := (mem_outsideFrom_iff (ih c (List.mem_of_getElem? hc))).mp hmem
        refine ⟨⟨c, hc, hat⟩, ?_⟩
        rintro ⟨d, hd, hinside⟩
        rw [hc] at hd
        cases hd
        exact hout hinside
      · rintro ⟨⟨c, hc, hat⟩, hout⟩
        refine ⟨c, hc, (mem_outsideFrom_iff (ih c (List.mem_of_getElem? hc))).mpr ⟨hat, ?_⟩⟩
        exact fun hinside => hout ⟨c, hc, hinside⟩

theorem pairwise_outsideAmong {k : Nat} {cs : List Node}
    (hcs : ∀ c ∈ cs, (c.outside.map Prod.fst).Pairwise (· < ·)) :
    ((outsideAmong k cs).map Prod.fst).Pairwise (· < ·) := by
  induction cs generalizing k with
  | nil => simp [outsideAmong]
  | cons c cs ih =>
    obtain ⟨hc, hcs⟩ := List.forall_mem_cons.mp hcs
    have hfrom : (c.outsideFrom.map Prod.fst).Pairwise (· < ·) := by
      unfold outsideFrom
      split
      · simp
      · exact hc
    rw [outsideAmong_cons, List.map_append, List.map_map, List.pairwise_append]
    refine ⟨?_, ih hcs, fun path hpath path' hpath' => ?_⟩
    · change (c.outsideFrom.map (List.cons k ∘ Prod.fst)).Pairwise (· < ·)
      rw [← List.map_map, List.pairwise_map]
      exact hfrom.imp fun h => List.cons_lt_cons_self.mpr h
    · -- the first places on the two paths differ
      obtain ⟨p, -, rfl⟩ := List.mem_map.mp hpath
      obtain ⟨⟨_, m⟩, hmem, rfl⟩ := List.mem_map.mp hpath'
      obtain ⟨i, d, rest, rfl, -, -⟩ := mem_outsideAmong.mp hmem
      exact List.Lex.rel (by omega)

/-- The nodes outside of calls are listed in preorder. -/
theorem pairwise_outside (n : Node) : (n.outside.map Prod.fst).Pairwise (· < ·) := by
  induction n using Node.induction_on_children with
  | step n ih =>
    rw [outside_eq, List.map_cons, List.pairwise_cons]
    refine ⟨fun path hpath => ?_, pairwise_outsideAmong ih⟩
    obtain ⟨⟨_, m⟩, hmem, rfl⟩ := List.mem_map.mp hpath
    obtain ⟨i, c, rest, rfl, -, -⟩ := mem_outsideAmong.mp hmem
    exact List.Lex.nil

/-- What depends on the depth and the node alone is gathered from the children one by one. -/
theorem filterMap_outsideAmong {γ : Type} (g : Nat → Node → Option γ) (k : Nat) (cs : List Node) :
    (outsideAmong k cs).filterMap (fun p => g p.1.length p.2) =
      cs.flatMap fun c => c.outsideFrom.filterMap fun p => g (p.1.length + 1) p.2 := by
  induction cs generalizing k with
  | nil => rfl
  | cons c cs ih =>
    rw [outsideAmong_cons, List.filterMap_append, List.filterMap_map, ih, List.flatMap_cons]
    rfl

/-! ## The traversal with a stack -/

/-- The calls that a depth-first traversal comes to, with their levels.  The stack holds what is
left of each list of siblings that the traversal is in; below a call it does not go. -/
def callsOnStack : List (List Node) → List (Node × Nat)
  | [] => []
  | [] :: pending => callsOnStack pending
  | (c :: cs) :: pending =>
    if c.isCall then (c, pending.length) :: callsOnStack (cs :: pending)
    else if c.children.isEmpty then callsOnStack (cs :: pending)
    else callsOnStack (c.children :: cs :: pending)
termination_by pending => sizeOf pending
decreasing_by
  · simp only [List.cons.sizeOf_spec, List.nil.sizeOf_spec]
    omega
  · simp only [List.cons.sizeOf_spec]
    omega
  · simp only [List.cons.sizeOf_spec]
    omega
  · have := sizeOf_children_lt c
    simp only [List.cons.sizeOf_spec]
    omega

/-- The outermost calls from a node on, when the node itself is at the given level. -/
def callsFrom (level : Nat) (c : Node) : List (Node × Nat) :=
  c.outsideFrom.filterMap fun p => if p.2.isCall then some (p.2, level + p.1.length) else none

theorem callsFrom_of_isCall {c : Node} (hcall : c.isCall) (level : Nat) :
    c.callsFrom level = [(c, level)] := by
  simp [callsFrom, outsideFrom, hcall]

theorem callsFrom_of_not_isCall {c : Node} (hcall : ¬c.isCall) (level : Nat) :
    c.callsFrom level = c.children.flatMap (callsFrom (level + 1)) := by
  have hchildren := filterMap_outsideAmong
    (fun depth n => if n.isCall then some (n, level + depth) else none) 0 c.children
  rw [callsFrom, outsideFrom, if_neg hcall, outside_eq, List.filterMap_cons_none (by simp [hcall]),
    hchildren]
  simp only [Nat.add_comm _ 1, ← Nat.add_assoc]
  rfl

theorem callsOnStack_siblings {cs : List Node} (pending : List (List Node))
    (hcs : ∀ c ∈ cs, ∀ cs' pending', callsOnStack ((c :: cs') :: pending') =
      c.callsFrom pending'.length ++ callsOnStack (cs' :: pending')) :
    callsOnStack (cs :: pending) =
      cs.flatMap (callsFrom pending.length) ++ callsOnStack pending := by
  induction cs with
  | nil => rw [callsOnStack]; rfl
  | cons c cs ih =>
    obtain ⟨hc, hcs⟩ := List.forall_mem_cons.mp hcs
    rw [hc, ih hcs, List.flatMap_cons, List.append_assoc]

/-- A node on top of the stack gives its own outermost calls, and then come those of the others. -/
theorem callsOnStack_cons (c : Node) : ∀ (cs : List Node) (pending : List (List Node)),
    callsOnStack ((c :: cs) :: pending) =
      c.callsFrom pending.length ++ callsOnStack (cs :: pending) := by
  induction c using Node.induction_on_children with
  | step c ih =>
    intro cs pending
    rw [callsOnStack]
    by_cases hcall : c.isCall
    · rw [if_pos hcall, callsFrom_of_isCall hcall, List.singleton_append]
    · rw [if_neg hcall, callsFrom_of_not_isCall hcall]
      split
      · next hempty =>
        rw [List.isEmpty_iff.mp hempty]
        rfl
      · exact callsOnStack_siblings (cs :: pending) ih

theorem callsOnStack_children (tree : Node) :
    callsOnStack [tree.children] = tree.children.flatMap (callsFrom 0) := by
  rw [callsOnStack_siblings [] fun c _ => callsOnStack_cons c, callsOnStack, List.append_nil]
  rfl

/-- The traversal comes to the outermost calls in preorder, and the level of a call is the number of
nodes between the root and it. -/
theorem callsOnStack_eq (tree : Node) :
    callsOnStack [tree.children] = tree.outside.filterMap fun p =>
      if p.1 ≠ [] ∧ p.2.isCall then some (p.2, p.1.length - 1) else none := by
  have hchildren := filterMap_outsideAmong (fun depth n =>
    if depth ≠ 0 ∧ n.isCall then some (n, depth - 1) else none) 0 tree.children
  simp only [ne_eq, List.length_eq_zero_iff] at hchildren
  rw [callsOnStack_children, outside_eq, List.filterMap_cons_none (by simp)]
  simp only [ne_eq, hchildren]
  refine List.flatMap_congr fun c _ => List.filterMap_congr fun p _ => ?_
  simp

mutual

theorem map_callsFrom : ∀ (c : Node) (level : Nat),
    (c.callsFrom level).map Prod.fst = if c.isCall then [c] else c.callsBelow
  | leaf h, level => by
    by_cases hcall : (leaf h).isCall
    · rw [callsFrom_of_isCall hcall, if_pos hcall]; rfl
    · rw [callsFrom_of_not_isCall hcall, if_neg hcall]; rfl
  | branch h cs, level => by
    by_cases hcall : (branch h cs).isCall
    · rw [callsFrom_of_isCall hcall, if_pos hcall]; rfl
    · rw [callsFrom_of_not_isCall hcall, if_neg hcall, callsBelow]
      exact map_flatMap_callsFrom cs (level + 1)

theorem map_flatMap_callsFrom : ∀ (cs : List Node) (level : Nat),
    (cs.flatMap (callsFrom level)).map Prod.fst = callsAmong cs
  | [], _ => rfl
  | c :: cs, level => by
    rw [List.flatMap_cons, List.map_append, map_callsFrom c, map_flatMap_callsFrom cs, callsAmong]

end

theorem map_callsOnStack (tree : Node) :
    (callsOnStack [tree.children]).map Prod.fst = tree.callsBelow := by
  rw [callsOnStack_children, map_flatMap_callsFrom]
  cases tree <;> rfl

/-- The outermost calls are those that no call is above of. -/
theorem mem_callsBelow {tree call : Node} : call ∈ tree.callsBelow ↔
    ∃ path, path ≠ [] ∧ tree.at? path = some call ∧ call.isCall ∧ ¬tree.InsideCall path := by
  rw [← map_callsOnStack, callsOnStack_eq, List.mem_map]
  constructor
  · rintro ⟨⟨c, level⟩, hmem, rfl⟩
    obtain ⟨⟨path, n⟩, hn, hstep⟩ := List.mem_filterMap.mp hmem
    split at hstep
    · next hcall =>
      cases hstep
      obtain ⟨hat, hout⟩ := mem_outside_iff.mp hn
      exact ⟨path, hcall.1, hat, hcall.2, hout⟩
    · cases hstep
  · rintro ⟨path, hpath, hat, hcall, hout⟩
    refine ⟨(call, path.length - 1), List.mem_filterMap.mpr ?_, rfl⟩
    exact ⟨(path, call), mem_outside_iff.mpr ⟨hat, hout⟩, if_pos ⟨hpath, hcall⟩⟩

/-- A call at any depth is an outermost call or is inside of one. -/
theorem hasCall_iff {tree : Node} :
    tree.hasCall ↔ ∃ path call, path ≠ [] ∧ tree.at? path = some call ∧ call.isCall := by
  have hhas : tree.hasCall ↔ ∃ call, call ∈ tree.callsBelow := by
    rw [hasCall, Bool.not_eq_true', List.isEmpty_eq_false_iff_exists_mem]
  rw [hhas]
  constructor
  · rintro ⟨call, hmem⟩
    obtain ⟨path, hpath, hat, hcall, -⟩ := mem_callsBelow.mp hmem
    exact ⟨path, call, hpath, hat, hcall⟩
  · rintro ⟨path, call, hpath, hat, hcall⟩
    induction hlength : path.length using Nat.strongRecOn generalizing path call with
    | _ length ih =>
      by_cases hinside : tree.InsideCall path
      · obtain ⟨above, below, outer, rfl, habove, hbelow, hat', houter⟩ := hinside
        have hshorter : above.length < length := by
          rw [← hlength, List.length_append]
          have := List.length_pos_of_ne_nil hbelow
          omega
        exact ih _ hshorter above outer habove hat' houter rfl
      · exact ⟨call, mem_callsBelow.mpr ⟨path, hpath, hat, hcall, hinside⟩⟩

end Node

end ColorMod
