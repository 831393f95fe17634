import ColorMod.Color.Checked
import ColorMod.Color.Hex
import ColorMod.Decimal.Numeral
import ColorMod.Report

/-!
# Argument grammars

The form of a list of arguments is a `Pattern`, one `Component` for each argument.  A component
reads an argument: it finds a value, finds a separator that has to be there, or finds that the
argument does not fit.  A pattern matches when every component fits, and gives the values without
the separators.

Patterns are tried in order with complaints ignored.  Since a color may be nested in the arguments,
reading is a `Run`; the argument brings along what it resolves to.
-/

namespace ColorMod

/-- An argument of a function, with what it means as a color and as an adjuster of one. -/
structure Argument (α : Type) where
  node : Node
  color : Context α → Run α (Resolution α)
  adjust : Color α → Context α → Run α (Resolution α)

/-- What an adjuster does with the amount after the operator. -/
inductive Operator where
  | add
  | subtract
  | multiply
  deriving DecidableEq, Repr, Inhabited

namespace Operator

def symbol : Operator → String
  | add => "+"
  | subtract => "-"
  | multiply => "*"

/-- The operator of `allowed` that a node is. -/
def ofNode? (n : Node) (allowed : List Operator) : Option Operator :=
  if n.kind = .operator then allowed.find? fun op => op.symbol == n.value else none

def apply {α : Type} [Scalar α] (op : Operator) (x amount : α) : α :=
  match op with
  | add => x + amount
  | subtract => x - amount
  | multiply => x * amount

end Operator

/-- A value found in an argument. -/
inductive Value (α : Type) where
  | number (x : α)
  | operator (op : Operator)
  | space (space : ColorSpace)
  | color (color : Color α)
  deriving Inhabited

/-- What a component finds in an argument. -/
inductive Reading (α : Type) where
  | unfit
  | separator
  | found (value : Value α)
  deriving Inhabited

def Reading.ofOption {α β : Type} (wrap : β → Value α) : Option β → Reading α
  | some b => found (wrap b)
  | none => unfit

namespace Node

/-- A number without a unit. -/
def isNumber (n : Node) : Bool :=
  n.kind == .number && n.unit == ""

def isPercentage (n : Node) : Bool :=
  n.kind == .number && n.unit == "%"

/-- A number without a unit or in degrees. -/
def isHue (n : Node) : Bool :=
  n.kind == .number && ["", "deg"].contains (Text.lower n.unit)

def isSlash (n : Node) : Bool :=
  n.kind == .operator && n.value == "/"

def isComma (n : Node) : Bool :=
  n.kind == .comma

/-- The color space that a word names. -/
def colorSpace? (n : Node) : Option ColorSpace :=
  if n.kind = .word then ColorSpace.ofName? n.name else none

end Node

/-- What can stand in one place of a list of arguments. -/
inductive Component where
  | number
  /-- A percentage, read as a share of one. -/
  | percentage
  | hue
  /-- A number or a percentage. -/
  | alpha
  /-- The same for red, green and blue. -/
  | channelValue
  /-- A number of 0 to 255 or a percentage. -/
  | rgbValue
  /-- A number of 0 to 255. -/
  | rgbNumber
  | plusMinus
  | times
  | plusMinusTimes
  | slash
  | comma
  | colorSpace
  /-- Any color, resolved one level deeper. -/
  | color
  | hexColor
  deriving DecidableEq, Repr, Inhabited

namespace Component

variable {α : Type} [Scalar α]

def number? (n : Node) : Option α :=
  if n.isNumber then Scalar.ofText? n.value else none

def percentage? (n : Node) : Option α :=
  if n.isPercentage then (Scalar.ofText? n.value).map (· / 100) else none

def hue? (n : Node) : Option α :=
  if n.isHue then Scalar.ofText? n.value else none

def alpha? (n : Node) : Option α :=
  if n.isNumber then number? n else percentage? n

def rgbNumber? (n : Node) : Option α :=
  (number? n).map (· / 255)

def rgbValue? (n : Node) : Option α :=
  if n.isNumber then rgbNumber? n else percentage? n

/-- The color that a hex word stands for. -/
def resolveHex (n : Node) (ctx : Context α) : Run α (Resolution α) :=
  match if n.kind = .word then Hex.color? n.value else none with
  | some c => pure (.ok c)
  | none => ctx.reject n n.value .hexColor

def ofResolution : Resolution α → Reading α
  | .ok c => .found (.color c)
  | .error _ => .unfit

/-- What the component finds in an argument. -/
def read (component : Component) (arg : Argument α) (ctx : Context α) : Run α (Reading α) :=
  let n := arg.node
  match component with
  | number => pure (.ofOption .number (number? n))
  | percentage => pure (.ofOption .number (percentage? n))
  | hue => pure (.ofOption .number (hue? n))
  | alpha | channelValue => pure (.ofOption .number (alpha? n))
  | rgbValue => pure (.ofOption .number (rgbValue? n))
  | rgbNumber => pure (.ofOption .number (rgbNumber? n))
  | plusMinus => pure (.ofOption .operator (Operator.ofNode? n [.add, .subtract]))
  | times => pure (.ofOption .operator (Operator.ofNode? n [.multiply]))
  | plusMinusTimes => pure (.ofOption .operator (Operator.ofNode? n [.add, .subtract, .multiply]))
  | slash => pure (if n.isSlash then .separator else .unfit)
  | comma => pure (if n.isComma then .separator else .unfit)
  | colorSpace => pure (.ofOption .space n.colorSpace?)
  | color => return ofResolution (← arg.color ctx.descend)
  | hexColor => return ofResolution (← resolveHex n ctx)

end Component

/-- The form of a list of arguments. -/
abbrev Pattern := List Component

namespace Pattern

variable {α : Type} [Scalar α]

/-- The values of arguments that fit the components one by one. -/
def readAll (ctx : Context α) : Pattern → List (Argument α) → Run α (Option (List (Value α)))
  | component :: pattern, arg :: args => do
    match ← component.read arg ctx with
    | .unfit => return none
    | .separator => readAll ctx pattern args
    | .found value => return (← readAll ctx pattern args).map (value :: ·)
  | _, _ => return some []

/-- The values of arguments that fit the pattern; their number is looked at first. -/
def matches? (pattern : Pattern) (args : List (Argument α)) (ctx : Context α) :
    Run α (Option (List (Value α))) :=
  if args.length = pattern.length then readAll ctx pattern args else pure none

/-- The values of the first of several patterns that fits. -/
def firstOf (patterns : List Pattern) (args : List (Argument α)) (ctx : Context α) :
    Run α (Option (List (Value α))) :=
  match patterns with
  | [] => return none
  | pattern :: patterns => do
    match ← pattern.matches? args ctx.quiet with
    | some values => return some values
    | none => firstOf patterns args ctx

end Pattern

end ColorMod
