import ColorMod.Config
import ColorMod.Settings

/-!
# Stored settings

The settings are the object of a configuration file, the defaults where it says nothing, and the
environment may override the policy and the format.  `Settings.ofMembers` accepts exactly the
objects whose known members have valid values; unknown members are warned about and passed over.
-/

namespace ColorMod

open Json (Members)

namespace Settings

def keys : List String :=
  ["unresolved", "stringifier", "max_depth", "transform_vars", "suggestion_cutoff"]

/-- The settings as an object. -/
def toMembers (s : Settings) : Members :=
  [("unresolved", .string s.policy), ("stringifier", .string s.format),
   ("max_depth", .int s.maxDepth), ("transform_vars", .bool s.replacesVariables),
   ("suggestion_cutoff", .float s.cutoff)]

/-- The complaint about a value that is not what it has to be. -/
def refuse {β : Type} (key expected : String) (value : Json) : Except String β :=
  .error (key ++ " must be " ++ expected ++ ", got " ++ value.shown)

def policyOf (value : Json) : Except String String :=
  match value.text?.bind Policy.ofName? with
  | some policy => .ok policy.name
  | none => refuse "unresolved" ("one of " ++ ContextError.policyList) value

def formatOf (value : Json) : Except String String :=
  match value.text?.bind ColorFormat.ofName? with
  | some format => .ok format.name
  | none => refuse "stringifier" ("one of " ++ Text.quotedList ColorFormat.names) value

def maxDepthOf (value : Json) : Except String Int :=
  match value with
  | .int n => if 1 ≤ n then .ok n else refused
  | _ => refused
where
  refused : Except String Int :=
    refuse "max_depth" "a positive integer" value

def variablesOf : Json → Except String Bool
  | .bool b => .ok b
  | value => refuse "transform_vars" "a boolean" value

def cutoffOf (value : Json) : Except String Float :=
  match value with
  | .int n => if 0 ≤ n ∧ n ≤ 100 then .ok (Scalar.ofDecimal n.toNat 0) else refused
  | .float x => if 0 ≤ x ∧ x ≤ 100 then .ok x else refused
  | _ => refused
where
  refused : Except String Float :=
    refuse "suggestion_cutoff" "a number in [0, 100]" value

/-- The settings that an object gives, with the defaults for what it leaves out. -/
def ofMembers (members : Members) : Except String Settings := do
  let value (key : CodeText) (otherwise : Json) : Json := (members.lookup key).getD otherwise
  let defaults : Settings := {}
  let policy ← policyOf (value "unresolved" (.string defaults.policy))
  let format ← formatOf (value "stringifier" (.string defaults.format))
  let maxDepth ← maxDepthOf (value "max_depth" (.int defaults.maxDepth))
  let replacesVariables ←
    variablesOf (value "transform_vars" (.bool defaults.replacesVariables))
  let cutoff ← cutoffOf (value "suggestion_cutoff" (.float defaults.cutoff))
  return { policy, format, maxDepth, replacesVariables, cutoff }

/-- The warning about members that are no settings. -/
def unknownWarnings (members : Members) : List CodeText :=
  let unknown := (members.map Prod.fst).filter fun key => !(keys.map CodeText.ofString).contains key
  if unknown.isEmpty then []
  else
    [CodeText.ofString "Ignoring unknown resolver settings: " ++
      (CodeText.ofString ", ").intercalate (unknown.mergeSort CodeText.atMost)]

/-- The check of a settings file. -/
def check : Check where
  name := "settings"
  run members :=
    { outcome :=
        match ofMembers members with
        | .ok settings => .ok settings.toMembers
        | .error message => .error (.wrongType message)
      warnings := unknownWarnings members }

/-- The value of a variable that overrides a setting. -/
def override? (around : Surroundings) (name : String) : Option Json :=
  (around.environment.setting? name).map fun text => .string (CodeText.ofString (Text.lower (Text.trim text)))

/-- The object with the settings that the environment overrides. -/
def overridden (around : Surroundings) (members : Members) : Members :=
  let put (members : Members) (key : CodeText) (name : String) : Members :=
    match override? around name with
    | some value => Json.setMember members key value
    | none => members
  put (put members "unresolved" "COLOR_MOD_UNRESOLVED") "stringifier" "COLOR_MOD_STRINGIFIER"

/-- The settings of the settings file, with the overrides of the environment. -/
def load (around : Surroundings) (cache : Cache) (named : Option String := none) : Loaded Settings :=
  let loaded := loadConfig around cache "resolver_defaults" check named
  let outcome := do
    match ofMembers (overridden around (← loaded.outcome)) with
    | .ok settings => .ok settings
    | .error message => .error (.wrongType message)
  { loaded with outcome }

/-- The settings file that comes with the library. -/
def shipped : String :=
  "\x7b\"unresolved\": \"throw\", \"stringifier\": \"legacy\", \"max_depth\": 64, " ++
    "\"transform_vars\": true, \"suggestion_cutoff\": 75\x7d"

end Settings

/-- Why no context can be built from stored settings. -/
inductive SetupError where
  | config (error : ConfigError)
  | context (error : ContextError)
  deriving DecidableEq, Repr

/-- A fresh context.  The stored settings are loaded only when a choice is left open. -/
def Context.load (choices : Choices) (around : Surroundings) (cache : Cache) :
    Except SetupError (Context Float) × Cache × List CodeText :=
  if choices.policy.isSome && choices.format.isSome && choices.maxDepth.isSome then
    ((Context.build choices {}).mapError .context, cache, [])
  else
    let loaded := Settings.load around cache
    let built := do
      let settings ← loaded.outcome.mapError SetupError.config
      (Context.build choices settings).mapError .context
    (built, loaded.cache, loaded.warnings)

end ColorMod
