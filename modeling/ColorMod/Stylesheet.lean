import ColorMod.Json.Basic
import ColorMod.Settings
import ColorMod.Variables
import ColorMod.Walk

/-!
# Declarations of a stylesheet

`transform` replaces the variables inside the calls of one value and then resolves the calls.
A `Processor` does so for the declarations of a stylesheet, with the custom properties that are
declared among them, and gathers the diagnostics of its runs.
-/

namespace ColorMod

/-- One value with its variables replaced and its calls resolved. -/
def transform {α : Type} [Scalar α] [LightCurve α] (tree : Node) (ctx : Context α)
    (props : Properties) : Walked α Node :=
  walk (if props.isEmpty then tree else tree.mapCalls (substitute props)) ctx

abbrev Declaration := String × Node

/-! ## Options -/

/-- What the user of a processor chooses. -/
structure Options extends Choices where
  replacesVariables : Option Bool := none
  deriving DecidableEq, Repr, Inhabited

/-- Options that no processor knows. -/
structure OptionsError where
  unknown : List String
  deriving DecidableEq, Repr

def OptionsError.message (e : OptionsError) : String :=
  "Unknown color-mod options: " ++ ", ".intercalate (e.unknown.mergeSort fun s t => s ≤ t)

namespace Options

def keys : List String :=
  ["unresolved", "stringifier", "transform_vars", "max_depth"]

/-- The option with the given key set; a value of another type chooses nothing. -/
def set (options : Options) (key : String) (value : Json) : Options :=
  match key, value with
  | "unresolved", .string name => { options with policy := name.toString? }
  | "stringifier", .string name => { options with format := name.toString? }
  | "transform_vars", .bool b => { options with replacesVariables := some b }
  | "max_depth", .int n => { options with maxDepth := some n }
  | _, _ => options

/-- The options of an object, unless it has a key that is none. -/
def ofMembers (members : List (String × Json)) : Except OptionsError Options :=
  let unknown := (members.map Prod.fst).filter fun key => !keys.contains key
  if unknown.isEmpty then .ok (members.foldl (fun o m => o.set m.1 m.2) {})
  else .error ⟨unknown⟩

end Options

/-! ## Processing -/

/-- Why a run over declarations ends early. -/
inductive ProcessFault where
  | context (error : ContextError)
  | fault (fault : Fault)
  deriving Inhabited

structure Processor where
  options : Options
  settings : Settings
  /-- The diagnostics of all runs so far. -/
  diagnostics : List Diagnostic := []
  deriving Inhabited

/-- The outcome of one run: the processor after it and the declarations as far as they were
transformed. -/
structure Processed where
  processor : Processor
  declarations : List Declaration
  outcome : Except ProcessFault Unit

namespace Processor

/-- Variables are replaced. -/
def replacesVariables (p : Processor) : Bool :=
  p.options.replacesVariables.getD p.settings.replacesVariables

/-- A declaration with the calls of its value resolved. -/
def transformDeclaration (ctx : Context Float) (props : Properties) (d : Declaration) :
    Walked Float Declaration :=
  if d.2.hasCall then
    let walked := transform d.2 ctx props
    ⟨(d.1, walked.result), walked.run⟩
  else
    ⟨d, pure ()⟩

/-- Transforms declarations one after the other, until a fault. -/
def transformAll (ctx : Context Float) (props : Properties) :
    List Declaration → Walked Float (List Declaration)
  | [] => ⟨[], pure ()⟩
  | d :: ds => (transformDeclaration ctx props d).cons ds fun _ => transformAll ctx props ds

/-- Transforms the declarations of a stylesheet.  The diagnostics of a run that fails are lost. -/
def process (p : Processor) (declarations : List Declaration) : Processed :=
  match Context.build p.options.toChoices p.settings with
  | .error e => ⟨p, declarations, .error (.context e)⟩
  | .ok ctx =>
    let props := if p.replacesVariables then Properties.collect declarations else []
    let walked := transformAll ctx props declarations
    match walked.run.outcome with
    | .ok _ =>
      ⟨{ p with diagnostics := p.diagnostics ++ walked.run.diagnostics }, walked.result, .ok ()⟩
    | .error f => ⟨p, walked.result, .error (.fault f)⟩

end Processor

end ColorMod
