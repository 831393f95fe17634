import ColorMod.Environment
import ColorMod.Json.Reader
import ColorMod.Links
import ColorMod.Text.Quoted

/-!
# Configuration files

`loadConfig` reads the JSON object of a file in the data directory and has it checked.

* The data directory is the one that the caller names, else the one that the environment names, else
  the first of the candidates that is a directory.
* The environment may name it from a home directory: `~/settings`, `~account/settings`.
* The text of a path has no null character, links in a circle lead to no path, and a relative text
  has none where the working directory is gone.
* A file outside of the data directory is refused before it is looked at.
* What a check has accepted is kept in a cache under the path, the time of change and the check, and
  is given again as long as these stay the same.
-/

namespace ColorMod

open Json (Members)

/-- What loading depends on from outside. -/
structure Surroundings where
  files : Files := {}
  links : Links := {}
  environment : Environment := {}
  /-- Where a data directory is looked for. -/
  candidates : List Path := []
  /-- Where relative texts start, unless the directory is gone. -/
  workingDirectory : Option Path := some ⟨[]⟩
  /-- The account that loading runs for. -/
  account : String := ""
  /-- The home directories of accounts. -/
  homes : List (String × Path) := []
  /-- The limits that JSON is read with. -/
  limits : Json.Limits := {}
  deriving Inhabited

namespace Surroundings

/-- The text of the home directory of an account, or of one's own when the account has no name.
`HOME` goes before what is known of one's own account. -/
def home? (around : Surroundings) (account : String) : Option String :=
  if account.isEmpty then
    (around.environment.lookup? "HOME").or ((around.homes.lookup around.account).map Path.text)
  else
    (around.homes.lookup account).map Path.text

/-- The text with a home directory in the place of `~` or of `~` and an account, if its first name is
one of these; for an account without a home directory that is a name like any other. -/
def expand (around : Surroundings) (text : String) : String :=
  match text.toList with
  | '~' :: cs =>
    match around.home? (.ofList (cs.takeWhile (· != '/'))) with
    | some home =>
      let front := (home.toList.reverse.dropWhile (· == '/')).reverse
      match front ++ cs.dropWhile (· != '/') with
      | [] => "/"
      | whole => .ofList whole
    | none => text
  | _ => text

/-- What looking at a path gives.  Where links lead in a circle, that is nothing. -/
def look (around : Surroundings) (p : Path) : Except SystemFailure (Option Entry) :=
  match around.links.real? p with
  | some real => around.files.look real
  | none => .ok none

end Surroundings

/-! ## Checks -/

/-- Why a check refuses an object. -/
inductive CheckError where
  /-- A value of the wrong type, told as it is. -/
  | wrongType (message : String)
  /-- A value that cannot be worked with. -/
  | failed (message : String)
  deriving DecidableEq, Repr

/-- What a check makes of an object, and the warnings it gives. -/
structure Checked where
  outcome : Except CheckError Members
  warnings : List CodeText := []

/-- A check of the members of an object, told apart from others by its name. -/
structure Check where
  name : String
  run : Members → Checked

/-! ## Errors -/

inductive ConfigError where
  | noDataDirectory (tried : List Path)
  /-- A text leads to no path. -/
  | notFollowed (error : PathError)
  /-- A relative text has nothing to start from. -/
  | noWorkingDirectory
  /-- Looking at a path fails. -/
  | notSeen (path : Path) (failure : SystemFailure)
  | outside (path directory : Path)
  | noFile (path : Path)
  /-- A file has no time of change. -/
  | notDated (path : Path) (failure : SystemFailure)
  | notRead (path : Path) (failure : ReadFailure)
  | notText
  | notJson (path : Path)
  /-- What is written is beyond the limits of reading. -/
  | beyondLimits (limits : Json.Limits) (demand : Json.Demand)
  | notObject (file kind : String)
  | wrongType (message : String)
  | checkFailed (file message : String)
  deriving DecidableEq, Repr

namespace ConfigError

def message : ConfigError → String
  | noDataDirectory tried =>
    "No 'data' directory found.\nTried:\n  " ++ "\n  ".intercalate (tried.map Path.text)
  | notFollowed .nullCharacter => "embedded null byte"
  | notFollowed (.circle path) => "Symlink loop from " ++ Text.quoted path.text
  | noWorkingDirectory => "[Errno 2] No such file or directory"
  | notSeen path failure => failure.messageAt path
  | outside path directory =>
    "Refusing to access file outside data dir: " ++ path.text ++ " (base=" ++ directory.text ++ ")"
  | noFile path => "Config file not found: " ++ path.text
  | notDated path failure => "Cannot stat " ++ path.text ++ ": " ++ failure.messageAt path
  | notRead path failure => "Cannot read " ++ path.text ++ ": " ++ failure.messageAt path
  | notText => "Config file is not UTF-8 text"
  | notJson path => "Invalid JSON in " ++ path.text
  | beyondLimits limits demand => demand.message limits
  | notObject file kind => file ++ ": expected a JSON object, got " ++ kind
  | wrongType message => message
  | checkFailed file message => file ++ ": validator failed: " ++ message

end ConfigError

/-! ## Loading -/

/-- What tells a cached object from others. -/
structure CacheKey where
  path : Path
  changed : Int
  check : String
  deriving DecidableEq, Repr

/-- The objects that checks have accepted. -/
abbrev Cache := List (CacheKey × Members)

/-- What loading gives. -/
structure Loaded (β : Type) where
  outcome : Except ConfigError β
  cache : Cache
  warnings : List CodeText := []
  /-- The check has run. -/
  checked : Bool := false

/-- The path that a text leads to from a directory. -/
def pathFrom (links : Links) (directory : Path) (text : String) : Except ConfigError Path :=
  (links.resolve directory text).mapError .notFollowed

/-- The path that a text leads to from the working directory. -/
def Surroundings.pathOf (around : Surroundings) (text : String) : Except ConfigError Path :=
  match around.workingDirectory with
  | some directory => pathFrom around.links directory text
  | none =>
    if Path.isAbsoluteText text then pathFrom around.links ⟨[]⟩ text
    else if '\x00' ∈ text.toList then .error (.notFollowed .nullCharacter)
    else .error .noWorkingDirectory

/-- The first candidate that is a directory. -/
def firstDirectory? (around : Surroundings) : List Path → Except ConfigError (Option Path)
  | [] => .ok none
  | candidate :: candidates => do
    match ← (around.look candidate).mapError (.notSeen candidate) with
    | some .directory => return some candidate
    | _ => firstDirectory? around candidates

/-- The candidates, where links lead. -/
def Surroundings.followCandidates (around : Surroundings) : Except ConfigError (List Path) :=
  around.candidates.mapM fun p => (around.links.resolveNames [] p.parts).mapError .notFollowed

/-- The directory that configuration files are in.  The candidates are all followed before the first
of them is looked at. -/
def dataDirectory (around : Surroundings) (named : Option String) : Except ConfigError Path :=
  match named with
  | some text => around.pathOf text
  | none =>
    match ["DATA_DIR", "COLOR_MOD_DATA_DIR"].findSome? around.environment.setting? with
    | some text => around.pathOf (around.expand text)
    | none => do
      let candidates ← around.followCandidates
      match ← firstDirectory? around candidates with
      | some directory => return directory
      | none => .error (.noDataDirectory candidates)

/-- The name with the ending of JSON files. -/
def jsonFileName (name : String) : String :=
  if ".json".toList.isSuffixOf name.toList then name else name ++ ".json"

/-- The path of a configuration file, with the answers of the file. -/
def findConfig (around : Surroundings) (directory : Path) (name : String) :
    Except ConfigError (Path × Answers) := do
  let path ← pathFrom around.links directory (jsonFileName name)
  if !path.isWithin directory then .error (.outside path directory)
  else
    match ← (around.look path).mapError (.notSeen path) with
    | some (.file bytes changed) => return (path, bytes, changed)
    | _ => .error (.noFile path)

/-- The members of the object that the bytes of a file spell. -/
def readObject (limits : Json.Limits) (path : Path) (bytes : List UInt8) :
    Except ConfigError Members :=
  match String.fromUTF8? ⟨bytes.toArray⟩ with
  | none => .error .notText
  | some text =>
    match Json.read limits text with
    | .error .malformed => .error (.notJson path)
    | .error (.beyond demand) => .error (.beyondLimits limits demand)
    | .ok written =>
      match written.merged with
      | .object members => .ok members
      | value => .error (.notObject path.name value.kindName)

/-- The error of a check on a file. -/
def CheckError.inFile (file : String) : CheckError → ConfigError
  | wrongType message => .wrongType message
  | failed message => .checkFailed file message

/-- The checked object of a file that was found, and was changed at a time.  Its bytes are asked for
only when the cache has no object. -/
def loadFound (limits : Json.Limits) (cache : Cache) (check : Check) (path : Path)
    (bytes : Except ReadFailure (List UInt8)) (changed : Int) : Loaded Members :=
  let key : CacheKey := ⟨path, changed, check.name⟩
  match cache.lookup key with
  | some members => { outcome := .ok members, cache }
  | none =>
    match bytes.mapError (ConfigError.notRead path) >>= readObject limits path with
    | .error e => { outcome := .error e, cache }
    | .ok members =>
      let result := check.run members
      match result.outcome with
      | .error e =>
        { outcome := .error (e.inFile path.name), cache, warnings := result.warnings,
          checked := true }
      | .ok accepted =>
        { outcome := .ok accepted, cache := (key, accepted) :: cache,
          warnings := result.warnings, checked := true }

/-- The checked object of a configuration file. -/
def loadConfig (around : Surroundings) (cache : Cache) (name : String) (check : Check)
    (named : Option String := none) : Loaded Members :=
  match dataDirectory around named with
  | .error e => { outcome := .error e, cache }
  | .ok directory =>
    match findConfig around directory name with
    | .error e => { outcome := .error e, cache }
    | .ok (path, bytes, changed) =>
      match changed with
      | .error failure => { outcome := .error (.notDated path failure), cache }
      | .ok changed => loadFound around.limits cache check path bytes changed

end ColorMod
