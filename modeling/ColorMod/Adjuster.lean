import ColorMod.Color.Contrast
import ColorMod.Grammar

/-!
# Adjusters

An adjuster is a function call that leads from one color to the next:

    red green blue alpha (a)            [+ | -] value ; * percentage ; value
    rgb                                 [+ | -] number{3} ; [+ | -] percentage{3} ; [+ | -] hex ;
                                        * percentage
    hue (h)                             [+ | - | *] hue ; hue, taken modulo 360
    blackness (b) lightness (l)
    saturation (s) whiteness (w)        [+ | - | *] percentage ; percentage
    shade tint                          percentage
    blend blenda                        color percentage [space]
    contrast                            [percentage]

`Adjuster.patterns` are these forms, `Adjuster.change` is what the values of a form do to a color.
An operator acts on the present value of the channel, a lone value replaces it; nothing is clamped.
-/

namespace ColorMod

inductive Adjuster where
  | channel (channel : Channel)
  | rgb
  | shade
  | tint
  | blend
  | blendAlpha
  | contrast
  deriving DecidableEq, Repr, Inhabited

namespace Adjuster

/-- The names of all adjusters, in the order in which they are suggested. -/
def table : List (String × Adjuster) :=
  [("red", channel .red), ("green", channel .green), ("blue", channel .blue),
   ("alpha", channel .alpha), ("rgb", rgb), ("hue", channel .hue),
   ("blackness", channel .blackness), ("lightness", channel .lightness),
   ("saturation", channel .saturation), ("whiteness", channel .whiteness), ("shade", shade),
   ("tint", tint), ("blend", blend), ("blenda", blendAlpha), ("contrast", contrast)]

def names : List String :=
  table.map Prod.fst

/-- The names that have a short form of one letter. -/
def shorthands : List (String × String) :=
  [("a", "alpha"), ("h", "hue"), ("b", "blackness"), ("l", "lightness"), ("s", "saturation"),
   ("w", "whiteness")]

/-- The name in lower case, with a short form written out. -/
def fullName (name : String) : String :=
  let lowered := Text.lower name
  (shorthands.lookup lowered).getD lowered

def ofName? (fullName : String) : Option Adjuster :=
  table.lookup fullName

/-! ## Forms -/

open Component in
/-- The forms of the arguments. -/
def patterns : Adjuster → List Pattern
  | channel .red | channel .green | channel .blue | channel .alpha =>
    [[plusMinus, channelValue], [times, percentage], [channelValue]]
  | channel .hue => [[plusMinusTimes, hue], [hue]]
  | channel _ => [[plusMinusTimes, percentage], [percentage]]
  | rgb =>
    [[plusMinus, rgbNumber, rgbNumber, rgbNumber],
     [plusMinus, percentage, percentage, percentage],
     [plusMinus, hexColor],
     [times, percentage]]
  | shade | tint => [[percentage]]
  | blend | blendAlpha => [[color, percentage, colorSpace], [color, percentage]]
  | contrast => [[percentage], []]

/-! ## Effects -/

section

variable {α : Type} [Scalar α]

/-- The new value of a channel: relative to the present one, or a value of its own. -/
def newValue? (present : α) : List (Value α) → Option α
  | [.operator op, .number amount] => some (op.apply present amount)
  | [.number amount] => some amount
  | _ => none

/-- A hue is stored modulo 360, any other channel as it is. -/
def stored (channel : Channel) (x : α) : α :=
  if channel = .hue then Scalar.rem x 360 else x

def changeChannel (channel : Channel) (c : Color α) (values : List (Value α)) :
    Except ArithmeticFault (Option (Color α)) := do
  match newValue? (← c.get channel) values with
  | some x => return some (← c.set channel (stored channel x))
  | none => return none

def changeRgb (c : Color α) (values : List (Value α)) :
    Except ArithmeticFault (Option (Color α)) := do
  let present ← c.rgb
  match values with
  | [.operator op, .number r, .number g, .number b] =>
    return some (c.setRgb (present.zipWith op.apply ⟨r, g, b⟩))
  | [.operator op, .color other] =>
    return some (c.setRgb (present.zipWith op.apply (← other.rgb)))
  | [.operator op, .number factor] => return some (c.setRgb (present.map (op.apply · factor)))
  | _ => return none

def mixWith (mixAlpha : Bool) (c : Color α) :
    List (Value α) → Except ArithmeticFault (Option (Color α))
  | [.color other, .number share, .space space] => return some (← c.mix other share space mixAlpha)
  | [.color other, .number share] => return some (← c.mix other share .rgb mixAlpha)
  | _ => return none

/-- What the values of a form do to a color; nothing is said of values that have no form. -/
def change [LightCurve α] (adjuster : Adjuster) (c : Color α) (values : List (Value α)) :
    Except ArithmeticFault (Option (Color α)) :=
  match adjuster, values with
  | channel ch, values => changeChannel ch c values
  | rgb, values => changeRgb c values
  | shade, [.number share] => return some (← c.shade share)
  | tint, [.number share] => return some (← c.tint share)
  | blend, values => mixWith false c values
  | blendAlpha, values => mixWith true c values
  | contrast, [.number share] => return some (← c.contrast share)
  | contrast, [] => return some (← c.contrast 1)
  | _, _ => return none

/-! ## Application -/

/-- The complaint about a name that no adjuster has. -/
def unknownName (written fullName : String) (ctx : Context α) : Run α Complaint := do
  if fullName.length = 1 then return .unknownChannel
  else return .unknownAdjuster (← ctx.hint written names)

/-- The third argument of a mix, when it is a word that names no space. -/
def unknownSpace? (adjuster : Adjuster) (args : List (Argument α)) : Option Node :=
  match adjuster, args with
  | blend, [_, _, arg] | blendAlpha, [_, _, arg] =>
    if arg.node.kind = .word && arg.node.colorSpace?.isNone then some arg.node else none
  | _, _ => none

/-- The node and the complaint for arguments that fit no form of an adjuster. -/
def unfit (node : Node) (adjuster : Adjuster) (fullName : String) (args : List (Argument α))
    (ctx : Context α) : Run α (Resolution α) := do
  match unknownSpace? adjuster args with
  | some word =>
    let hint ← ctx.hint word.value ["hsl", "hwb", "rgb"]
    ctx.reject node word.value (.unknownSpace hint)
  | none => ctx.reject node node.render (.adjusterArguments fullName)

/-- Applies a node as an adjuster, given what its arguments mean. -/
def applyNode [LightCurve α] (node : Node) (args : List (Argument α)) (c : Color α)
    (ctx : Context α) : Run α (Resolution α) := do
  if node.isFunction then
    let name := fullName node.value
    match ofName? name with
    | none => ctx.reject node node.value (← unknownName node.value name ctx)
    | some adjuster =>
      match ← Pattern.firstOf adjuster.patterns args ctx with
      | none => unfit node adjuster name args ctx
      | some values =>
        match ← Run.ofArithmetic (adjuster.change c values) with
        | some adjusted => return .ok adjusted
        | none => unfit node adjuster name args ctx
  else
    ctx.reject node node.render .noAdjuster

/-- Applies adjusters one after the other.  One that fails leaves the color as it is. -/
def applyAll (ctx : Context α) (c : Color α) : List (Argument α) → Run α (Color α)
  | [] => return c
  | arg :: args => do
    match ← arg.adjust c ctx with
    | .ok adjusted =>
      Run.tell (.adjusted arg.node adjusted)
      applyAll ctx adjusted args
    | .error u =>
      Run.tell (.skipped arg.node u.complaint)
      applyAll ctx c args

end

end Adjuster

end ColorMod
