import ColorMod.Report
import ColorMod.Text.Quoted

/-!
# Settings

`Settings` are the defaults of resolution, with policy and format by name.  A context is built from
settings and from choices that go before them (`Context.build`); only then are the names looked up.
-/

namespace ColorMod

structure Settings where
  policy : String := "throw"
  format : String := "legacy"
  maxDepth : Int := 64
  /-- Variables inside of calls are replaced. -/
  replacesVariables : Bool := true
  cutoff : Float := 75
  deriving Repr, Inhabited

/-- Choices that go before the settings. -/
structure Choices where
  policy : Option String := none
  format : Option String := none
  maxDepth : Option Int := none
  deriving DecidableEq, Repr, Inhabited

/-- Why no context can be built. -/
inductive ContextError where
  | unknownFormat (name : String)
  | unknownPolicy (name : String)
  deriving DecidableEq, Repr

namespace ContextError

/-- The names of the policies as messages list them. -/
def policyList : String :=
  "(" ++ ", ".intercalate (Policy.all.map fun policy => Text.quoted policy.name) ++ ")"

def message : ContextError → String
  | unknownFormat name =>
    "Unknown stringifier " ++ Text.quoted name ++ "; expected one of " ++
      Text.quotedList ColorFormat.names
  | unknownPolicy name =>
    "Unknown unresolved policy " ++ Text.quoted name ++ "; expected one of " ++ policyList

end ContextError

/-- A fresh context.  An unknown format is found before an unknown policy. -/
def Context.build (choices : Choices) (settings : Settings) :
    Except ContextError (Context Float) := do
  let formatName := choices.format.getD settings.format
  let policyName := choices.policy.getD settings.policy
  match ColorFormat.ofName? formatName, Policy.ofName? policyName with
  | none, _ => .error (.unknownFormat formatName)
  | some _, none => .error (.unknownPolicy policyName)
  | some format, some policy =>
    .ok
      { policy, format
        maxDepth := choices.maxDepth.getD settings.maxDepth
        cutoff := settings.cutoff }

end ColorMod
