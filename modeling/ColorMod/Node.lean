import ColorMod.Text.Case

/-!
# Value trees

A CSS value is a tree of nodes.  A function keeps its parentheses: its first child is `(` and its
last `)`, and the children in between are its arguments, where spaces carry no meaning.

* `Node.arguments`: what stands between the parentheses, without spaces.
* `Node.render`: the text of a node.  Components are set apart by one blank, with none before a
  comma.
* `Node.outline`: the same with the arguments left out.
-/

namespace ColorMod

namespace Node

inductive Kind where
  | value
  | function
  | word
  | number
  | operator
  | comma
  | space
  | string
  | paren
  deriving DecidableEq, Repr, Inhabited

def Kind.name : Kind → String
  | value => "value"
  | function => "function"
  | word => "word"
  | number => "number"
  | operator => "operator"
  | comma => "comma"
  | space => "space"
  | string => "string"
  | paren => "paren"

/-- What a node says apart from its children. -/
structure Head where
  kind : Kind
  /-- The text of the node, or the name of the function. -/
  value : String := ""
  /-- The unit of a number. -/
  unit : String := ""
  deriving DecidableEq, Repr, Inhabited

end Node

/-- A node of a value tree.  A branch may have no children, and then it is still no leaf. -/
inductive Node where
  | leaf (head : Node.Head)
  | branch (head : Node.Head) (children : List Node)
  deriving Inhabited

namespace Node

def head : Node → Head
  | leaf h => h
  | branch h _ => h

def kind (n : Node) : Kind :=
  n.head.kind

def value (n : Node) : String :=
  n.head.value

def unit (n : Node) : String :=
  n.head.unit

/-- The children of a branch, none for a leaf. -/
def children : Node → List Node
  | leaf _ => []
  | branch _ cs => cs

def isBranch : Node → Bool
  | leaf _ => false
  | branch .. => true

/-- The node with another head. -/
def setHead (n : Node) (h : Head) : Node :=
  match n with
  | leaf _ => leaf h
  | branch _ cs => branch h cs

/-- The name of a function or the text of a word, in lower case. -/
def name (n : Node) : String :=
  Text.lower n.value

/-- A value or a function with a list of children. -/
def isContainer (n : Node) : Bool :=
  (n.kind == .value || n.kind == .function) && n.isBranch

def isFunction (n : Node) : Bool :=
  n.kind == .function

/-- A function with one of the given names, which are in lower case. -/
def isFunctionNamed (n : Node) (names : List String) : Bool :=
  n.isFunction && names.contains n.name

/-! ## Building nodes -/

def word (text : String) : Node :=
  leaf { kind := .word, value := text }

def number (amount : String) (unit : String := "") : Node :=
  leaf { kind := .number, value := amount, unit }

def operator (text : String) : Node :=
  leaf { kind := .operator, value := text }

def string (text : String) : Node :=
  leaf { kind := .string, value := text }

def paren (text : String) : Node :=
  leaf { kind := .paren, value := text }

def comma : Node :=
  leaf { kind := .comma, value := "," }

def space : Node :=
  leaf { kind := .space, value := " " }

/-- A function call with its parentheses. -/
def function (name : String) (arguments : List Node) : Node :=
  branch { kind := .function, value := name } (paren "(" :: arguments ++ [paren ")"])

/-- The root of a whole value. -/
def root (children : List Node) : Node :=
  branch { kind := .value } children

/-! ## Arguments -/

/-- A list without its first and its last member. -/
def inner {β : Type} (xs : List β) : List β :=
  xs.tail.dropLast

/-- The arguments of a function without its parentheses and without spaces. -/
def arguments (n : Node) : List Node :=
  (inner n.children).filter fun c => c.kind != .space

/-! ## Sizes -/

theorem sizeOf_children_lt (n : Node) : sizeOf n.children < sizeOf n := by
  cases n with
  | leaf h =>
    have : 0 < sizeOf h := by cases h; simp only [Head.mk.sizeOf_spec]; omega
    simp only [children, List.nil.sizeOf_spec, leaf.sizeOf_spec]
    omega
  | branch h cs =>
    simp only [children, branch.sizeOf_spec]
    omega

theorem sizeOf_tail_le (nodes : List Node) : sizeOf nodes.tail ≤ sizeOf nodes := by
  cases nodes <;> simp

theorem sizeOf_dropLast_le (nodes : List Node) : sizeOf nodes.dropLast ≤ sizeOf nodes := by
  induction nodes with
  | nil => simp
  | cons n nodes ih =>
    cases nodes with
    | nil => simp
    | cons m nodes =>
      rw [List.dropLast_cons_of_ne_nil (by simp)]
      simp only [List.cons.sizeOf_spec] at ih ⊢
      omega

theorem sizeOf_inner_le (nodes : List Node) : sizeOf (inner nodes) ≤ sizeOf nodes :=
  Nat.le_trans (sizeOf_dropLast_le nodes.tail) (sizeOf_tail_le nodes)

/-! ## Text -/

/-- The text of a child with its kind, which tells how it is set apart. -/
abbrev Component := Kind × String

/-- A component and the blank before it. -/
def spaced : Component → String
  | (.comma, text) => text
  | (_, text) => " " ++ text

/-- The components of a container: spaces are dropped, and one blank stands before each other one
but the first and the commas. -/
def joined (components : List Component) : String :=
  match components.filter fun c => c.1 != .space with
  | [] => ""
  | (_, text) :: rest => text ++ String.join (rest.map spaced)

/-- The text of a node from its head and its components. -/
def assembled (h : Head) (components : List Component) : String :=
  match h.kind with
  | .value => joined components
  | .function =>
    let args := if 2 ≤ components.length then inner components else components
    h.value ++ "(" ++ joined args ++ ")"
  | .number => h.value ++ h.unit
  | _ => h.value

mutual

/-- The text of a node. -/
def render : Node → String
  | leaf h => assembled h []
  | branch h cs => assembled h (components cs)

def components : List Node → List Component
  | [] => []
  | n :: ns => (n.kind, n.render) :: components ns

end

/-- The text of a node, with dots for the arguments. -/
def outline (n : Node) : String :=
  if n.isFunction then n.value ++ "(...)"
  else if n.isContainer then "..."
  else n.render

end Node

end ColorMod
