import ColorMod.Keys
import ColorMod.Node

/-!
# Custom properties

A declaration of a property whose name starts with `--` gives a value to that name, and
`var(--name, fallback)` stands for the value.  `substitute` puts the values in the place of the
calls below a node, again and again:

* a call of a defined name becomes the children of its value, without the spaces around them;
* a call of an undefined name becomes its fallback, if it has one;
* a call stays as it is when its name is malformed, when it has nothing to become, or when the
  expansion comes back to a name that is being expanded.

Expansion ends: a value adds a name to the ones being expanded, of which there are finitely many,
and a fallback is a part of its call.
-/

namespace ColorMod

/-- The values of custom properties, in the order of their last declarations. -/
abbrev Properties := List (String × Node)

/-- A name of a custom property. -/
def isCustomProperty (name : String) : Bool :=
  ['-', '-'].isPrefixOf name.toList

namespace Properties

/-- Gives a value to a name, which moves to the end. -/
def define (props : Properties) (name : String) (value : Node) : Properties :=
  props.filter (fun p => p.1 != name) ++ [(name, value)]

/-- The custom properties among declarations.  The last value of a name counts. -/
def collect (declarations : List (String × Node)) : Properties :=
  declarations.foldl
    (fun props (name, value) => if isCustomProperty name then props.define name value else props) []

/-- How many properties have a name that is not being expanded. -/
def unseen (props : Properties) (seen : List String) : Nat :=
  (props.filter fun p => p.1 ∉ seen).length

end Properties

namespace Node

def isVariable (n : Node) : Bool :=
  n.isFunctionNamed ["var"]

/-- The name that a call of `var` refers to. -/
def variableName? (call : Node) : Option String :=
  match call.arguments with
  | arg :: _ => if arg.kind = .word ∧ isCustomProperty arg.value then some arg.value else none
  | [] => none

/-- What stands after the first comma of a call. -/
def fallback? (call : Node) : Option (List Node) :=
  match (inner call.children).dropWhile fun c => c.kind != .comma with
  | _ :: rest => some rest
  | [] => none

/-- The nodes without spaces at either end. -/
def trimSpaces (nodes : List Node) : List Node :=
  ((nodes.dropWhile fun c => c.kind == .space).reverse.dropWhile fun c => c.kind == .space).reverse

end Node

/-! ## What is expanded gets smaller -/

namespace Properties

theorem unseen_cons_le (props : Properties) (name : String) (seen : List String) :
    props.unseen (name :: seen) ≤ props.unseen seen :=
  unseenKeys_cons_le props name seen

theorem unseen_cons_lt {props : Properties} {name : String} {seen : List String} {value : Node}
    (hseen : name ∉ seen) (hdef : props.lookup name = some value) :
    props.unseen (name :: seen) < props.unseen seen :=
  unseenKeys_cons_lt hseen hdef

end Properties

namespace Node

theorem sizeOf_dropWhile_le (p : Node → Bool) (nodes : List Node) :
    sizeOf (nodes.dropWhile p) ≤ sizeOf nodes := by
  induction nodes with
  | nil => simp
  | cons n nodes ih =>
    rw [List.dropWhile_cons]
    split
    · simp only [List.cons.sizeOf_spec]
      omega
    · exact Nat.le_refl _

/-- A fallback is smaller than its call. -/
theorem sizeOf_fallback_lt {call : Node} {nodes : List Node} (h : call.fallback? = some nodes) :
    sizeOf nodes < sizeOf call := by
  unfold fallback? at h
  split at h
  · next comma rest hdrop =>
    cases h
    have h1 := sizeOf_dropWhile_le (fun c => c.kind != .comma) (inner call.children)
    have h2 := sizeOf_inner_le call.children
    have h3 := sizeOf_children_lt call
    rw [hdrop] at h1
    simp only [List.cons.sizeOf_spec] at h1
    omega
  · cases h

end Node

/-! ## Substitution -/

/-- Nodes with their variables replaced, and whether that met no cycle. -/
abbrev Substituted := List Node × Bool

/-- The replacement of a call by its expansion; a call whose expansion met a cycle stays. -/
def Substituted.orKeep (call : Node) : Substituted → Substituted
  | (nodes, true) => (Node.trimSpaces nodes, true)
  | (_, false) => ([call], false)

mutual

/-- Replaces a node, in a place where the names `seen` are being expanded. -/
def substituteNode (props : Properties) (seen : List String) (n : Node) : Substituted :=
  if n.isVariable then
    match n.variableName? with
    | none => ([n], true)
    | some name =>
      if _hseen : name ∈ seen then ([n], false)
      else
        match _hdef : props.lookup name with
        | some value => (substituteAll props (name :: seen) value.children).orKeep n
        | none =>
          match _hfall : n.fallback? with
          | some nodes => (substituteAll props (name :: seen) nodes).orKeep n
          | none => ([n], true)
  else
    match n with
    | .leaf _ => ([n], true)
    | .branch h cs =>
      let (nodes, ok) := substituteAll props seen cs
      ([.branch h nodes], ok)
termination_by (props.unseen seen, sizeOf n, 1)
decreasing_by
  · exact Prod.Lex.left _ _ (Properties.unseen_cons_lt _hseen _hdef)
  · rcases Nat.lt_or_eq_of_le (Properties.unseen_cons_le props name seen) with h | h
    · exact Prod.Lex.left _ _ h
    · rw [h]
      exact Prod.Lex.right _ (Prod.Lex.left _ _ (Node.sizeOf_fallback_lt _hfall))
  · exact Prod.Lex.right _ (Prod.Lex.left _ _ (by simp only [Node.branch.sizeOf_spec]; omega))

def substituteAll (props : Properties) (seen : List String) : List Node → Substituted
  | [] => ([], true)
  | n :: ns =>
    let (front, ok) := substituteNode props seen n
    let (rest, ok') := substituteAll props seen ns
    (front ++ rest, ok && ok')
termination_by nodes => (props.unseen seen, sizeOf nodes, 0)
decreasing_by
  · exact Prod.Lex.right _ (Prod.Lex.left _ _ (by simp only [List.cons.sizeOf_spec]; omega))
  · exact Prod.Lex.right _ (Prod.Lex.left _ _ (by simp only [List.cons.sizeOf_spec]; omega))

end

/-- The node with the variables below it replaced. -/
def substitute (props : Properties) : Node → Node
  | .leaf h => .leaf h
  | .branch h cs => .branch h (substituteAll props [] cs).1

end ColorMod
