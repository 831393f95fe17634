/-!
# Environment variables

An environment gives values to names.  `set` refuses what no environment can hold: a null character,
which would end the text, and a name that is empty or has an equals sign, which would end the name.
-/

namespace ColorMod

structure Environment where
  entries : List (String × String) := []
  deriving DecidableEq, Repr, Inhabited

namespace Environment

/-- The value of a variable. -/
def lookup? (env : Environment) (name : String) : Option String :=
  env.entries.lookup name

/-- The value of a variable for a setting.  An empty value sets nothing. -/
def setting? (env : Environment) (name : String) : Option String :=
  (env.lookup? name).filter fun text => !text.isEmpty

/-- Why a variable cannot be set. -/
inductive Error where
  | nullCharacter
  | equalsSign
  | emptyName
  deriving DecidableEq, Repr

def Error.message : Error → String
  | nullCharacter => "embedded null byte"
  | equalsSign => "illegal environment variable name"
  | emptyName => "[Errno 22] Invalid argument"

/-- The environment without a variable. -/
def unset (env : Environment) (name : String) : Environment :=
  ⟨env.entries.filter fun v => v.1 != name⟩

/-- The environment with a value for a variable. -/
def set (env : Environment) (name value : String) : Except Error Environment :=
  if '\x00' ∈ name.toList ∨ '\x00' ∈ value.toList then .error .nullCharacter
  else if '=' ∈ name.toList then .error .equalsSign
  else if name.isEmpty then .error .emptyName
  else .ok ⟨(name, value) :: (env.unset name).entries⟩

end Environment

end ColorMod
