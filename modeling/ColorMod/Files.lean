import ColorMod.Text.Quoted
import ColorMod.Text.Words

/-!
# Files

A path is absolute and normal: its parts are the names from the root on, with no `.`, no `..` and no
empty name among them (`Path.resolve`).  `Files` is what a file system holds apart from links: at each
path a file, a directory, or nothing.

A file answers two questions, for its bytes and for its time of change, and each answer may be a
failure of the system.  So may be what looking at a path gives (`Files.look`): a name may be too long,
or nothing may be told of what is at a path or below it.  Links in a circle are no such failure of an
entry: they are found where links are followed.
-/

namespace ColorMod

/-- An absolute path, from the root on. -/
structure Path where
  parts : List String
  deriving DecidableEq, Repr, Inhabited

namespace Path

/-- One step along a path: to a name below, up, or nowhere. -/
def step (parts : List String) (name : String) : List String :=
  if name = "" ∨ name = "." then parts
  else if name = ".." then parts.dropLast
  else parts ++ [name]

/-- The path that the names of a text lead to from `base`. -/
def descend (base : Path) (text : String) : Path :=
  ⟨(Text.split text '/').foldl step base.parts⟩

def isAbsoluteText (text : String) : Bool :=
  text.toList.head? = some '/'

/-- The path that a text leads to from `base`.  A slash at the front leads to the root first. -/
def resolve (base : Path) (text : String) : Path :=
  let start : Path := if isAbsoluteText text then ⟨[]⟩ else base
  start.descend text

/-- The path that a text leads to from the root. -/
def ofText (text : String) : Path :=
  resolve ⟨[]⟩ text

/-- The path as text. -/
def text (p : Path) : String :=
  "/" ++ "/".intercalate p.parts

/-- The last name of the path. -/
def name (p : Path) : String :=
  p.parts.getLast?.getD ""

def parent (p : Path) : Path :=
  ⟨p.parts.dropLast⟩

/-- `p` is the directory or lies somewhere below it. -/
def isWithin (p directory : Path) : Bool :=
  directory.parts.isPrefixOf p.parts

end Path

/-! ## Failures -/

/-- A failure of the system, by its number and its reason. -/
structure SystemFailure where
  number : Nat
  reason : String
  deriving DecidableEq, Repr, Inhabited

namespace SystemFailure

def nameTooLong : SystemFailure := ⟨36, "File name too long"⟩

/-- The failure says that there is nothing: no entry, a file on the way, or links in a circle. -/
def saysNothing (failure : SystemFailure) : Bool :=
  [2, 9, 20, 40].contains failure.number

def message (failure : SystemFailure) : String :=
  "[Errno " ++ toString failure.number ++ "] " ++ failure.reason

/-- The message of a failure at a path. -/
def messageAt (failure : SystemFailure) (p : Path) : String :=
  failure.message ++ ": " ++ Text.quoted p.text

end SystemFailure

/-- Why the bytes of a file are not there. -/
inductive ReadFailure where
  /-- The file cannot be opened. -/
  | opening (failure : SystemFailure)
  /-- The file is open, and reading it fails. -/
  | reading (failure : SystemFailure)
  deriving DecidableEq, Repr

def ReadFailure.messageAt (p : Path) : ReadFailure → String
  | opening failure => failure.messageAt p
  | reading failure => failure.message

/-! ## Entries -/

/-- What is at a path. -/
inductive Entry where
  /-- A file, with the answers that it gives. -/
  | file (bytes : Except ReadFailure (List UInt8)) (changed : Except SystemFailure Int)
  | directory
  /-- Nothing can be told of what is here, or below. -/
  | barred (failure : SystemFailure)
  deriving Inhabited

/-- What a file answers: its bytes, and its time of change. -/
abbrev Answers := Except ReadFailure (List UInt8) × Except SystemFailure Int

/-- The entries of a file system. -/
structure Files where
  entries : List (Path × Entry) := []
  deriving Inhabited

namespace Files

def entry? (files : Files) (p : Path) : Option Entry :=
  if p.parts = [] then some .directory else files.entries.lookup p

def isDirectory (files : Files) (p : Path) : Bool :=
  match files.entry? p with
  | some .directory => true
  | _ => false

def answers? (files : Files) (p : Path) : Option Answers :=
  match files.entry? p with
  | some (.file bytes changed) => some (bytes, changed)
  | _ => none

/-- The bytes of a file and its time of change, if both are there. -/
def file? (files : Files) (p : Path) : Option (List UInt8 × Int) :=
  match files.answers? p with
  | some (.ok bytes, .ok changed) => some (bytes, changed)
  | _ => none

/-- Why the last step to a path cannot be taken: its name is too long, and the directory of that name
is there, or nothing can be told of the path. -/
def barAt? (files : Files) (p : Path) : Option SystemFailure :=
  if 255 < p.name.utf8ByteSize && files.isDirectory p.parent then some .nameTooLong
  else
    match files.entry? p with
    | some (.barred failure) => some failure
    | _ => none

/-- Why a path cannot be looked at: all of it is too long, or a step on the way cannot be taken. -/
def bar? (files : Files) (p : Path) : Option SystemFailure :=
  if 4096 ≤ p.text.utf8ByteSize then some .nameTooLong
  else (List.range p.parts.length).findSome? fun count => files.barAt? ⟨p.parts.take (count + 1)⟩

/-- Looks at a path: what is there, nothing, or a failure that does not say so. -/
def look (files : Files) (p : Path) : Except SystemFailure (Option Entry) :=
  match files.bar? p with
  | some failure => if failure.saysNothing then .ok none else .error failure
  | none => .ok (files.entry? p)

/-- Puts an entry at a path. -/
def put (files : Files) (p : Path) (entry : Entry) : Files :=
  ⟨(p, entry) :: files.entries.filter fun e => e.1 != p⟩

/-- Makes a directory at a path that has nothing yet. -/
def ensureDirectory (files : Files) (p : Path) : Files :=
  if (files.entry? p).isSome then files else files.put p .directory

/-- Makes a directory and the ones above it. -/
def makeDirectory (files : Files) (p : Path) : Files :=
  (List.range (p.parts.length + 1)).foldl
    (fun files count => files.ensureDirectory ⟨p.parts.take count⟩) files

/-- Writes a file, and makes the directories above it. -/
def write (files : Files) (p : Path) (bytes : List UInt8) (changed : Int) : Files :=
  (files.makeDirectory p.parent).put p (.file (.ok bytes) (.ok changed))

/-- Removes what is at a path and below it. -/
def remove (files : Files) (p : Path) : Files :=
  ⟨files.entries.filter fun e => !e.1.isWithin p⟩

end Files

end ColorMod
