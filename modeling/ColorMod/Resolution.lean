import ColorMod.Adjuster

/-!
# Resolving colors

A node means two things, and an `Argument` holds both: the color it stands for, and what it does to
a color as an adjuster.  The meaning of a node is put together from the meanings of its arguments
(`meaning`), so that nesting needs no recursion of its own.

* `resolveColor`: a color function, a hex word, a named color or a `color-mod` call.
* `resolveColorMod`: the seed of the call, changed by its adjusters from left to right.  The seed is
  a color, or a hue that stands for its pure color.
-/

namespace ColorMod

variable {α : Type} [Scalar α]

/-! ## Color functions -/

open Component in
/-- The forms of the color function of a space: with spaces, or with commas where that is allowed,
and each with or without alpha. -/
def ColorSpace.patterns : ColorSpace → List Pattern
  | .rgb =>
    [[rgbValue, rgbValue, rgbValue, slash, alpha],
     [rgbValue, rgbValue, rgbValue],
     [rgbValue, comma, rgbValue, comma, rgbValue, comma, alpha],
     [rgbValue, comma, rgbValue, comma, rgbValue]]
  | .hsl =>
    [[hue, percentage, percentage, slash, alpha],
     [hue, percentage, percentage],
     [hue, comma, percentage, comma, percentage, comma, alpha],
     [hue, comma, percentage, comma, percentage]]
  | .hwb =>
    [[hue, percentage, percentage, slash, alpha],
     [hue, percentage, percentage]]

/-- The color of three channels and perhaps alpha. -/
def Color.ofValues? (space : ColorSpace) : List (Value α) → Option (Color α)
  | [.number a, .number b, .number c] => some (ofChannels space ⟨a, b, c⟩ 1)
  | [.number a, .number b, .number c, .number alpha] => some (ofChannels space ⟨a, b, c⟩ alpha)
  | _ => none

/-- Resolves a node as the color function of a space. -/
def resolveFunction (space : ColorSpace) (node : Node) (args : List (Argument α))
    (ctx : Context α) : Run α (Resolution α) := do
  match (← Pattern.firstOf space.patterns args ctx).bind (Color.ofValues? space) with
  | some c => return .ok c
  | none => ctx.reject node node.render (.colorFunction space)

/-! ## Words -/

/-- The color that a word names. -/
def Color.named? (n : Node) : Option (Color α) :=
  if n.kind = .word then
    (namedColor? n.value).map fun rgb => ofChannels .rgb rgb 1
  else
    none

/-- Resolves a node as a named color. -/
def resolveNamed (node : Node) (ctx : Context α) : Run α (Resolution α) :=
  match Color.named? node with
  | some c => return .ok c
  | none => ctx.reject node node.value .namedColor

/-! ## The color-mod function -/

/-- The first argument of a call: the pure color of a hue, or any color. -/
def resolveSeed (arg : Argument α) (ctx : Context α) : Run α (Resolution α) :=
  if arg.node.isHue then
    match Component.hue? arg.node with
    | some hue => return .ok (.ofChannels .hsl ⟨hue, 1, 0.5⟩ 1)
    | none => ctx.reject arg.node arg.node.value .seedHue
  else
    arg.color ctx

/-- Resolves a node as a `color-mod` call, given what its arguments mean. -/
def resolveCall (node : Node) (args : List (Argument α)) (ctx : Context α) :
    Run α (Resolution α) := do
  if ctx.tooDeep then ctx.reject node node.outline .tooDeep
  else
    match args with
    | [] => ctx.reject node node.render .noArguments
    | seed :: adjusters =>
      match ← resolveSeed seed ctx.descend with
      | .ok c =>
        Run.tell (.seed seed.node c)
        return .ok (← Adjuster.applyAll ctx.descend c adjusters)
      | .error _ => ctx.reject node node.render .seedColor

/-! ## Meaning -/

def colorModName : String := "color-mod"

/-- Resolves a function by its name in lower case. -/
def resolveNamedFunction (node : Node) (args : List (Argument α)) (ctx : Context α) :
    Run α (Resolution α) :=
  if node.name = "rgb" ∨ node.name = "rgba" then resolveFunction .rgb node args ctx
  else if node.name = "hsl" ∨ node.name = "hsla" then resolveFunction .hsl node args ctx
  else if node.name = "hwb" then resolveFunction .hwb node args ctx
  else if node.name = colorModName then resolveCall node args ctx
  else ctx.reject node node.render .color

/-- Resolves a word as a hex color or by its name. -/
def resolveWord (node : Node) (ctx : Context α) : Run α (Resolution α) :=
  if node.value.toList.head? = some '#' then Component.resolveHex node ctx
  else
    match Color.named? node with
    | some c => return .ok c
    | none => ctx.reject node node.render .color

/-- Resolves a node as a color, given what its arguments mean. -/
def resolveNode (node : Node) (args : List (Argument α)) (ctx : Context α) :
    Run α (Resolution α) :=
  if ctx.tooDeep then ctx.reject node node.outline .tooDeep
  else
    match node.kind with
    | .function => resolveNamedFunction node args ctx
    | .word => resolveWord node ctx
    | _ => ctx.reject node node.render .color

/-- The arguments among the meanings of a function's children. -/
def Argument.ofChildren (children : List (Argument α)) : List (Argument α) :=
  (Node.inner children).filter fun c => c.node.kind != .space

/-- The meaning of a node from the meanings of its children. -/
def Argument.ofNode [LightCurve α] (node : Node) (children : List (Argument α)) : Argument α where
  node := node
  color := resolveNode node (ofChildren children)
  adjust := Adjuster.applyNode node (ofChildren children)

mutual

/-- What a node means. -/
def meaning [LightCurve α] : Node → Argument α
  | .leaf h => .ofNode (.leaf h) []
  | .branch h cs => .ofNode (.branch h cs) (meanings cs)

def meanings [LightCurve α] : List Node → List (Argument α)
  | [] => []
  | n :: ns => meaning n :: meanings ns

end

section

variable [LightCurve α]

/-- The meanings of a node's arguments. -/
def argumentMeanings (node : Node) : List (Argument α) :=
  Argument.ofChildren (meanings node.children)

/-- Resolves any node that stands for a color. -/
def resolveColor (node : Node) : Context α → Run α (Resolution α) :=
  (meaning node).color

/-- Resolves a node as a `color-mod` call. -/
def resolveColorMod (node : Node) : Context α → Run α (Resolution α) :=
  resolveCall node (argumentMeanings node)

/-- Applies a node to a color as an adjuster. -/
def applyAdjuster (c : Color α) (node : Node) : Context α → Run α (Resolution α) :=
  (meaning node).adjust c

/-- Applies nodes to a color as adjusters, from left to right. -/
def applyAdjusters (c : Color α) (nodes : List Node) (ctx : Context α) : Run α (Color α) :=
  Adjuster.applyAll ctx c (meanings nodes)

end

end ColorMod
