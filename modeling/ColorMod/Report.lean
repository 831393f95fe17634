import ColorMod.Color.Written
import ColorMod.Node
import ColorMod.Suggestion

/-!
# Complaints and how they are taken

What cannot be resolved is a value, an `Unresolved` node with the complaint about it.  The policy of
the context decides what else happens to it: under `ignore` nothing, under `warn` it is noted among
the diagnostics, under `raise` it ends the run.

A `Run` is a computation with its log: the outcome, the diagnostics and the events in order.  The
log is kept when the run fails.
-/

namespace ColorMod

inductive Policy where
  | ignore
  | warn
  | raise
  deriving DecidableEq, Repr, Inhabited

namespace Policy

def all : List Policy :=
  [ignore, warn, raise]

def name : Policy → String
  | ignore => "ignore"
  | warn => "warn"
  | raise => "throw"

def ofName? (name : String) : Option Policy :=
  all.find? fun policy => policy.name == name

end Policy

/-! ## Complaints -/

/-- The kinds of complaint. -/
inductive UnresolvedKind where
  | grammarMismatch
  | unknownAdjuster
  | unknownChannel
  | invalidColorSpace
  | depthExceeded
  deriving DecidableEq, Repr, Inhabited

namespace UnresolvedKind

def all : List UnresolvedKind :=
  [grammarMismatch, unknownAdjuster, unknownChannel, invalidColorSpace, depthExceeded]

def name : UnresolvedKind → String
  | grammarMismatch => "GrammarMismatch"
  | unknownAdjuster => "UnknownAdjuster"
  | unknownChannel => "UnknownChannel"
  | invalidColorSpace => "InvalidColorSpace"
  | depthExceeded => "DepthExceeded"

end UnresolvedKind

/-- What is wrong with a node. -/
inductive Complaint where
  /-- The arguments fit no form of the color function of a space. -/
  | colorFunction (space : ColorSpace)
  | hexColor
  | namedColor
  /-- A `color-mod` without arguments. -/
  | noArguments
  /-- The first argument of a `color-mod` is no color. -/
  | seedColor
  /-- The first argument of a `color-mod` is a number that does not parse. -/
  | seedHue
  /-- The node is nothing that stands for a color. -/
  | color
  | tooDeep
  /-- Something other than a function among the adjusters. -/
  | noAdjuster
  | unknownAdjuster (hint : Option String)
  | unknownChannel
  /-- The arguments fit no form of the adjuster. -/
  | adjusterArguments (adjuster : String)
  | unknownSpace (hint : Option String)
  /-- A complaint in the words of a caller. -/
  | stated (kind : UnresolvedKind) (message : String)
  deriving DecidableEq, Repr, Inhabited

namespace Complaint

def kind : Complaint → UnresolvedKind
  | tooDeep => .depthExceeded
  | noAdjuster | unknownAdjuster _ => .unknownAdjuster
  | unknownChannel => .unknownChannel
  | unknownSpace _ => .invalidColorSpace
  | stated kind _ => kind
  | _ => .grammarMismatch

def message : Complaint → String
  | colorFunction .rgb => "Expected a valid rgb() function"
  | colorFunction .hsl => "Expected a valid hsl() function"
  | colorFunction .hwb => "Expected a valid hwb() function"
  | hexColor => "Expected a valid hex color"
  | namedColor => "Expected a valid named-color"
  | noArguments => "Expected a valid color-mod() function"
  | seedColor => "Expected a valid color"
  | seedHue => "Expected a valid hue"
  | color => "Expected a color"
  | tooDeep => "Maximum nesting depth exceeded"
  | noAdjuster => "Expected a valid color adjuster"
  | unknownAdjuster hint => withHint "Expected a valid color adjuster" hint
  | unknownChannel => "Expected a valid channel shorthand (a, b, h, l, s, w)"
  | adjusterArguments adjuster => "Expected a valid " ++ adjuster ++ "() adjuster"
  | unknownSpace hint => withHint "Expected a valid colorspace" hint
  | stated _ message => message

end Complaint

/-- A complaint as it is noted: `word` is the part of the text that it is about. -/
structure Diagnostic where
  complaint : Complaint
  word : String
  deriving DecidableEq, Repr, Inhabited

/-- The diagnostic as one line. -/
def Diagnostic.line (d : Diagnostic) : String :=
  d.complaint.message ++ " (" ++ d.word ++ ")"

/-- A node that could not be resolved. -/
structure Unresolved extends Diagnostic where
  node : Node
  deriving Inhabited

/-- Why a run ends early. -/
inductive Fault where
  | arithmetic (fault : ArithmeticFault)
  | suggestion (fault : Suggestion.Fault)
  | unresolved (unresolved : Unresolved)
  deriving Inhabited

/-- A color, or the node that is none. -/
abbrev Resolution (α : Type) := Except Unresolved (Color α)

/-! ## Runs -/

/-- A step worth telling when resolution is traced. -/
inductive Event (α : Type) where
  /-- A `color-mod` starts from a color. -/
  | seed (node : Node) (color : Color α)
  /-- An adjuster leads to a color. -/
  | adjusted (node : Node) (color : Color α)
  /-- An adjuster is passed over. -/
  | skipped (node : Node) (complaint : Complaint)
  /-- A call gives way to a text. -/
  | replaced (node : Node) (text : String)

/-- A computation with its log. -/
structure Run (α β : Type) where
  outcome : Except Fault β
  diagnostics : List Diagnostic := []
  events : List (Event α) := []

namespace Run

variable {α β γ : Type}

protected def bind (x : Run α β) (f : β → Run α γ) : Run α γ :=
  match x.outcome with
  | .ok b =>
    let y := f b
    ⟨y.outcome, x.diagnostics ++ y.diagnostics, x.events ++ y.events⟩
  | .error e => ⟨.error e, x.diagnostics, x.events⟩

instance : Monad (Run α) where
  pure b := ⟨.ok b, [], []⟩
  bind := Run.bind

/-- A computation that logs nothing. -/
def ofArithmetic (x : Except ArithmeticFault β) : Run α β :=
  ⟨x.mapError .arithmetic, [], []⟩

def tell (event : Event α) : Run α Unit :=
  ⟨.ok (), [], [event]⟩

end Run

/-! ## Contexts -/

/-- The settings of one resolution and the depth it has come to. -/
structure Context (α : Type) where
  policy : Policy
  format : ColorFormat
  maxDepth : Int
  /-- The least likeness of a suggestion. -/
  cutoff : α
  depth : Nat := 0
  deriving Repr, Inhabited

namespace Context

variable {α : Type}

/-- The same context with complaints ignored, for trying out grammars. -/
def quiet (ctx : Context α) : Context α :=
  { ctx with policy := .ignore }

/-- One level deeper. -/
def descend (ctx : Context α) : Context α :=
  { ctx with depth := ctx.depth + 1 }

def tooDeep (ctx : Context α) : Bool :=
  ctx.maxDepth < ctx.depth

/-- Takes a complaint as the policy says. -/
def report (ctx : Context α) (node : Node) (word : String) (complaint : Complaint) :
    Run α Unresolved :=
  let u : Unresolved := { complaint, word, node }
  match ctx.policy with
  | .ignore => pure u
  | .warn => ⟨.ok u, [u.toDiagnostic], []⟩
  | .raise => ⟨.error (.unresolved u), [], []⟩

/-- What a name that is not among the choices may have been meant to be. -/
def hint [Scalar α] (ctx : Context α) (name : String) (choices : List String) :
    Run α (Option String) :=
  ⟨(suggest name choices ctx.cutoff).mapError .suggestion, [], []⟩

/-- No color, with the reason. -/
def reject (ctx : Context α) (node : Node) (word : String) (complaint : Complaint) :
    Run α (Resolution α) := do
  return .error (← ctx.report node word complaint)

end Context

end ColorMod
