import ColorMod.Node

/-!
# Writing a tree with a stack

A tree that is deeper than any recursion may go has a text as well.  A stack holds what is left to
write, nodes and texts, and a turn takes the topmost piece: a container gives way to its components
and the blanks and parentheses among them, any other piece is written.

* `Writing.turn?`: one turn, unless nothing is left.
* `Writing.weight_lt_of_turn?`: a turn makes the stack lighter.
* `Node.write`: the text, when the stack is empty.
-/

namespace ColorMod

namespace Node

/-- What is left to write. -/
inductive Piece where
  | text (text : String)
  | node (node : Node)

/-- The components of a container, given whether one stands before them already: spaces are
dropped, and a blank comes before each other one but the first and the commas. -/
def pieces (after : Bool) : List Node → List Piece
  | [] => []
  | c :: cs =>
    if c.kind = .space then pieces after cs
    else if after && c.kind != .comma then .text " " :: .node c :: pieces true cs
    else .node c :: pieces true cs

/-- The children of a function without its parentheses, if there are enough to be parentheses. -/
def enclosed (cs : List Node) : List Node :=
  if 2 ≤ cs.length then inner cs else cs

/-- A text that is being written. -/
structure Writing where
  /-- What is left, the next piece first. -/
  stack : List Piece
  written : String := ""

namespace Writing

def turn? (w : Writing) : Option Writing :=
  match w.stack with
  | [] => none
  | .text t :: stack => some { stack, written := w.written ++ t }
  | .node n :: stack =>
    match n.kind with
    | .value => some { w with stack := pieces false n.children ++ stack }
    | .function =>
      let opening := .text (n.value ++ "(")
      some { w with stack := opening :: pieces false (enclosed n.children) ++ .text ")" :: stack }
    | .number => some { stack, written := w.written ++ (n.value ++ n.unit) }
    | _ => some { stack, written := w.written ++ n.value }

/-! ## Each turn makes the stack lighter -/

/-- A node weighs more than what it gives way to. -/
noncomputable def stackWeight : List Piece → Nat
  | [] => 0
  | .text _ :: stack => 1 + stackWeight stack
  | .node n :: stack => 2 * sizeOf n + stackWeight stack

theorem stackWeight_append (stack below : List Piece) :
    stackWeight (stack ++ below) = stackWeight stack + stackWeight below := by
  induction stack with
  | nil => rw [List.nil_append, stackWeight, Nat.zero_add]
  | cons piece stack ih =>
    rw [List.cons_append]
    cases piece <;> rw [stackWeight, stackWeight, ih, Nat.add_assoc]

theorem stackWeight_pieces_lt (after : Bool) (cs : List Node) :
    stackWeight (pieces after cs) + 1 < 2 * sizeOf cs := by
  induction cs generalizing after with
  | nil => simp [pieces, stackWeight]
  | cons c cs ih =>
    have hrest := ih after
    have htrue := ih true
    simp only [pieces, List.cons.sizeOf_spec]
    split
    · omega
    · split <;> simp only [stackWeight] <;> omega

noncomputable def weight (w : Writing) : Nat :=
  stackWeight w.stack

theorem weight_lt_of_turn? {w next : Writing} (h : w.turn? = some next) :
    next.weight < w.weight := by
  obtain ⟨stack, written⟩ := w
  cases stack with
  | nil => cases h
  | cons piece stack =>
    cases piece with
    | text t =>
      cases h
      simp only [weight, stackWeight]
      omega
    | node n =>
      have hchildren := sizeOf_children_lt n
      have henclosed : sizeOf (enclosed n.children) ≤ sizeOf n.children := by
        unfold enclosed
        split
        · exact sizeOf_inner_le _
        · exact Nat.le_refl _
      have hvalue := stackWeight_pieces_lt false n.children
      have hfunction := stackWeight_pieces_lt false (enclosed n.children)
      simp only [turn?] at h
      split at h <;> cases h <;>
        simp only [weight, stackWeight, stackWeight_append, List.cons_append] <;> omega

/-- What is written when nothing is left. -/
def finish (w : Writing) : String :=
  match _h : w.turn? with
  | none => w.written
  | some next => next.finish
termination_by w.weight
decreasing_by exact weight_lt_of_turn? _h

end Writing

/-- The text of a node, written with a stack. -/
def write (n : Node) : String :=
  { stack := [.node n] : Writing }.finish

end Node

end ColorMod
