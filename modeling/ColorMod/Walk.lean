import ColorMod.Resolution

/-!
# Replacing the calls of a tree

`walk` goes over a tree depth first and puts the text of the color in the place of every `color-mod`
call that resolves.  A call that does not resolve stays as it is, with all that is below it.  A
fault ends the walk; what has been replaced until then stays replaced.

* `callsBelow`: the calls that a walk meets, those that are inside of no other call.
* `mapCalls`: the tree with each of these calls replaced.
-/

namespace ColorMod

namespace Node

/-- A call of the `color-mod` function. -/
def isCall (n : Node) : Bool :=
  n.isFunctionNamed [colorModName]

mutual

/-- The outermost calls below a node, from left to right. -/
def callsBelow : Node → List Node
  | leaf _ => []
  | branch _ cs => callsAmong cs

/-- The outermost calls among nodes and below them. -/
def callsAmong : List Node → List Node
  | [] => []
  | c :: cs => (if c.isCall then [c] else callsBelow c) ++ callsAmong cs

end

/-- Some call is below the node. -/
def hasCall (n : Node) : Bool :=
  !n.callsBelow.isEmpty

mutual

/-- The tree with its outermost calls changed by `f`. -/
def mapCalls (f : Node → Node) : Node → Node
  | leaf h => leaf h
  | branch h cs => branch h (mapCallsAmong f cs)

def mapCallsAmong (f : Node → Node) : List Node → List Node
  | [] => []
  | c :: cs => (if c.isCall then f c else mapCalls f c) :: mapCallsAmong f cs

end

end Node

/-- A thing as far as the walk over it came, and how the walk went. -/
structure Walked (α β : Type) where
  result : β
  run : Run α Unit

/-- A thing walked over, then the ones after it; after a fault those stay as they were. -/
def Walked.cons {α β : Type} (first : Walked α β) (others : List β)
    (rest : Unit → Walked α (List β)) : Walked α (List β) :=
  match first.run.outcome with
  | .ok _ =>
    let rest := rest ()
    ⟨first.result :: rest.result, first.run.bind fun _ => rest.run⟩
  | .error _ => ⟨first.result :: others, first.run⟩

variable {α : Type} [Scalar α] [LightCurve α]

/-- The text of the color that a call resolves to, as a word; the call itself if it is no color. -/
def replaceCall (call : Node) (ctx : Context α) : Run α Node := do
  match ← resolveColorMod call ctx with
  | .ok c =>
    let text ← Run.ofArithmetic (c.toCss ctx.format)
    Run.tell (.replaced call text)
    return .word text
  | .error _ => return call

/-- A call replaced, or as it was after a fault. -/
def walkCall (call : Node) (ctx : Context α) : Walked α Node :=
  let run := replaceCall call ctx
  ⟨run.outcome.toOption.getD call, run.bind fun _ => pure ()⟩

mutual

/-- Replaces the calls below a node. -/
def walk : Node → Context α → Walked α Node
  | n@(.leaf _), ctx =>
    if ctx.tooDeep then ⟨n, (ctx.report n n.outline .tooDeep).bind fun _ => pure ()⟩
    else ⟨n, pure ()⟩
  | n@(.branch h cs), ctx =>
    if ctx.tooDeep then ⟨n, (ctx.report n n.outline .tooDeep).bind fun _ => pure ()⟩
    else
      let walked := walkAll cs ctx
      ⟨.branch h walked.result, walked.run⟩

/-- Replaces the calls among the children of a node and below them. -/
def walkAll : List Node → Context α → Walked α (List Node)
  | [], _ => ⟨[], pure ()⟩
  | c :: cs, ctx =>
    let first :=
      if c.isCall then walkCall c ctx
      else if c.children.isEmpty then ⟨c, pure ()⟩
      else walk c ctx.descend
    first.cons cs fun _ => walkAll cs ctx

end

end ColorMod
