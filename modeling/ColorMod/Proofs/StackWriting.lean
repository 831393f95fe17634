import Mathlib.Logic.Relation
import ColorMod.Node.Writing
import ColorMod.Proofs.Positions

/-!
# Texts written with a stack

A tree of any shape is written with a stack in finitely many turns, and its text is the one that it
has by recursion.  That text hangs on the kinds and the texts of the children, so a node anywhere in
a tree may give way to another one of its kind and its text.

* `Writing.acc`: no run goes on for ever.
* `Writing.turns_pieces`, `Writing.turns_node`: the components of a container, and a node, are
  written when they are on top of the stack, whatever lies below.
* `write_eq_render`: the text at the end.
* `render_replaceAt`: a node in the place of another one.
* `write_recursive`: all of it.
-/

namespace ColorMod

namespace Node

/-! ## Texts by recursion -/

section

variable {n : Node}

theorem render_value (h : n.kind = .value) : n.render = joined (components n.children) := by
  rw [render_eq, ← components_eq_map, assembled, show n.head.kind = .value from h]

theorem render_called (h : n.kind = .function) :
    n.render = n.value ++ "(" ++ joined (components (enclosed n.children)) ++ ")" := by
  have hargs : (if 2 ≤ (components n.children).length then inner (components n.children)
      else components n.children) = components (enclosed n.children) := by
    simp only [components_eq_map, map_inner, List.length_map, enclosed]
    split <;> rfl
  rw [render_eq, ← components_eq_map, assembled, show n.head.kind = .function from h]
  dsimp only
  rw [hargs]
  rfl

theorem render_number (h : n.kind = .number) : n.render = n.value ++ n.unit := by
  rw [render_eq, assembled, show n.head.kind = .number from h]
  rfl

theorem render_plain (hvalue : n.kind ≠ .value) (hfunction : n.kind ≠ .function)
    (hnumber : n.kind ≠ .number) : n.render = n.value := by
  rw [render_eq, assembled]
  split
  · next h => exact absurd h hvalue
  · next h => exact absurd h hfunction
  · next h => exact absurd h hnumber
  · rfl

end

/-- The components of a container that stand after another one. -/
def following (components : List Component) : String :=
  String.join ((components.filter fun c => c.1 != .space).map spaced)

section

variable {kind : Kind} {text : String} {cs : List Component}

theorem following_space : following ((.space, text) :: cs) = following cs := rfl

theorem following_cons (h : kind ≠ .space) :
    following ((kind, text) :: cs) = spaced (kind, text) ++ following cs := by
  rw [following, List.filter_cons_of_pos (by simpa using h), List.map_cons, String.join_cons]
  rfl

theorem spaced_of_ne (h : kind ≠ .comma) : spaced (kind, text) = " " ++ text := by
  cases kind <;> first | rfl | exact absurd rfl h

theorem joined_space : joined ((.space, text) :: cs) = joined cs := rfl

theorem joined_cons (h : kind ≠ .space) :
    joined ((kind, text) :: cs) = text ++ following cs := by
  rw [joined, List.filter_cons_of_pos (by simpa using h)]
  rfl

end

/-! ## Turns -/

namespace Writing

abbrev Turns : Writing → Writing → Prop :=
  Relation.ReflTransGen fun w next => w.turn? = some next

/-- No run goes on for ever. -/
theorem acc (w : Writing) : Acc (fun next w => w.turn? = some next) w :=
  (Subrelation.wf (r := fun next w => next.weight < w.weight) weight_lt_of_turn?
    (measure weight).wf).apply w

theorem finish_of_turn? {w next : Writing} (h : w.turn? = some next) : w.finish = next.finish := by
  rw [finish]
  split
  · next hnone => rw [h] at hnone; cases hnone
  · next next' hnext =>
    rw [h] at hnext
    cases hnext
    rfl

theorem finish_of_turns {w next : Writing} (h : Turns w next) : w.finish = next.finish := by
  induction h with
  | refl => rfl
  | tail _ hturn ih => exact ih.trans (finish_of_turn? hturn)

theorem finish_nil (written : String) : finish { stack := [], written } = written := by
  rw [finish]
  rfl

variable (stack : List Piece) (written : String)

theorem turns_text (t : String) :
    Turns { stack := .text t :: stack, written } { stack, written := written ++ t } :=
  .single rfl

/-- The node is written when it is on top, whatever lies below it. -/
def Writes (n : Node) : Prop :=
  ∀ stack written,
    Turns { stack := .node n :: stack, written } { stack, written := written ++ n.render }

theorem turns_pieces_true {cs : List Node} (hcs : ∀ c ∈ cs, Writes c) :
    Turns { stack := pieces true cs ++ stack, written }
      { stack, written := written ++ following (components cs) } := by
  induction cs generalizing written with
  | nil => rw [components, following]; simpa using .refl
  | cons c cs ih =>
    obtain ⟨hc, hcs⟩ := List.forall_mem_cons.mp hcs
    rw [pieces, components]
    split
    · next hspace =>
      rw [hspace, following_space]
      exact ih written hcs
    · next hspace =>
      rw [following_cons hspace, ← String.append_assoc]
      split
      · next hcomma =>
        rw [spaced_of_ne (by simpa using hcomma), ← String.append_assoc]
        exact ((turns_text _ written " ").trans (hc _ _)).trans (ih _ hcs)
      · next hcomma =>
        rw [show c.kind = .comma by simpa using hcomma]
        exact (hc _ written).trans (ih _ hcs)

/-- The first component has no blank before it. -/
theorem turns_pieces {cs : List Node} (hcs : ∀ c ∈ cs, Writes c) :
    Turns { stack := pieces false cs ++ stack, written }
      { stack, written := written ++ joined (components cs) } := by
  induction cs with
  | nil => rw [components, joined]; simpa using .refl
  | cons c cs ih =>
    obtain ⟨hc, hcs⟩ := List.forall_mem_cons.mp hcs
    rw [pieces, components]
    split
    · next hspace =>
      rw [hspace, joined_space]
      exact ih hcs
    · next hspace =>
      rw [joined_cons hspace, ← String.append_assoc]
      exact (hc _ written).trans (turns_pieces_true stack _ hcs)

theorem turns_node (n : Node) : Writes n := by
  induction n using Node.induction_on_children with
  | step n ih =>
    intro stack written
    cases hkind : n.kind with
    | value =>
      have hturn : turn? { stack := .node n :: stack, written } =
          some { stack := pieces false n.children ++ stack, written } := by
        simp only [turn?, hkind]
      rw [render_value hkind]
      exact .head hturn (turns_pieces stack written ih)
    | function =>
      have hturn : turn? { stack := .node n :: stack, written } = some
          { stack := .text (n.value ++ "(") ::
              (pieces false (enclosed n.children) ++ .text ")" :: stack), written } := by
        simp only [turn?, hkind, List.cons_append]
      have henclosed : ∀ c ∈ enclosed n.children, Writes c := by
        intro c hc
        unfold enclosed at hc
        split at hc
        · exact ih c (mem_of_mem_inner hc)
        · exact ih c hc
      rw [render_called hkind, ← String.append_assoc, ← String.append_assoc]
      exact .head hturn <| ((turns_text _ written _).trans
        (turns_pieces _ _ henclosed)).trans (turns_text stack _ ")")
    | number =>
      rw [render_number hkind]
      exact .single (by simp only [turn?, hkind])
    | _ =>
      rw [render_plain (by simp [hkind]) (by simp [hkind]) (by simp [hkind])]
      exact .single (by simp only [turn?, hkind])

end Writing

theorem write_eq_render (n : Node) : n.write = n.render := by
  rw [write, Writing.finish_of_turns (Writing.turns_node n [] ""), Writing.finish_nil,
    String.empty_append]

/-! ## A node in the place of another one -/

/-- The tree with another node at a position; without a node there it stays as it is. -/
def replaceAt (tree : Node) (path : List Nat) (new : Node) : Node :=
  match path, tree with
  | [], _ => new
  | _ :: _, leaf h => leaf h
  | i :: path, branch h cs => branch h (cs.modify i fun c => c.replaceAt path new)

/-- A node of the same kind and the same text does not show in the text of the tree. -/
theorem render_replaceAt {tree old new : Node} {path : List Nat} (hat : tree.at? path = some old)
    (hkind : new.kind = old.kind) (htext : new.render = old.render) :
    (tree.replaceAt path new).kind = tree.kind ∧ (tree.replaceAt path new).render = tree.render := by
  induction path generalizing tree with
  | nil =>
    cases hat
    rw [replaceAt]
    exact ⟨hkind, htext⟩
  | cons i path ih =>
    obtain ⟨c, hc, hbelow⟩ := at?_cons.mp hat
    obtain ⟨hckind, hctext⟩ := ih hbelow
    cases tree with
    | leaf h => cases hc
    | branch h cs =>
      have hsame : (cs.modify i fun c => c.replaceAt path new).map (fun c => (c.kind, c.render)) =
          cs.map fun c => (c.kind, c.render) := by
        refine List.ext_getElem? fun j => ?_
        rw [List.getElem?_map, List.getElem?_map, List.getElem?_modify]
        by_cases hij : i = j
        · subst hij
          rw [show cs[i]? = some c from hc]
          simp [hckind, hctext]
        · cases cs[j]? <;> simp [hij]
      refine ⟨rfl, ?_⟩
      rw [replaceAt, render, render, components_eq_map, components_eq_map, hsame]

/-- A tree of any shape is written: the turns come to an end, whatever is done first, and then the
text is the one by recursion, in which a container is its components without spaces, with a blank
before each but the first and the commas.  A node at any place of the tree may be replaced by one of
its kind and its text without a change. -/
theorem write_recursive (tree : Node) :
    Acc (fun next w => Writing.turn? w = some next) { stack := [.node tree] } ∧
    Writing.Turns { stack := [.node tree] } { stack := [], written := tree.render } ∧
    tree.write = tree.render ∧
    ∀ path old new, tree.at? path = some old → new.kind = old.kind → new.write = old.write →
      (tree.replaceAt path new).write = tree.write := by
  refine ⟨Writing.acc _, ?_, write_eq_render tree, fun path old new hat hkind htext => ?_⟩
  · have hturns := Writing.turns_node tree [] ""
    rwa [String.empty_append] at hturns
  · rw [write_eq_render, write_eq_render] at htext ⊢
    exact (render_replaceAt hat hkind htext).2

/-- A function without children, a word with one, and a value in a function that gives way to
another value of the same text. -/
theorem write_recursive_nestedValue :
    let old := root [word "a", space, space, word "b"]
    let new := root [word "a b"]
    let tree := root [function "calc" [number "1" "px", space, comma, old],
      leaf { kind := .function, value := "f" }, branch { kind := .word, value := "x" } [comma]]
    tree.at? [0, 4] = some old ∧ new.kind = old.kind ∧ new.write = old.write ∧
    (tree.replaceAt [0, 4] new).write = tree.write ∧ tree.write = "calc(1px, a b) f() x" := by
  intro old new tree
  obtain ⟨-, -, htext, hreplace⟩ := write_recursive tree
  have hnew : new.write = old.write := by
    rw [write_eq_render, write_eq_render]
    decide +kernel
  refine ⟨rfl, rfl, hnew, hreplace [0, 4] old new rfl rfl hnew, htext.trans ?_⟩
  decide +kernel

end Node

end ColorMod
