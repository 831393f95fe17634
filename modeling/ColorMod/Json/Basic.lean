import ColorMod.Decimal.Shortest
import ColorMod.Text.Quoted

/-!
# JSON values

Integers are exact and apart from other numbers.  A value as it is written may have a key twice in
one object; once it is merged (`Json.merged`), the keys of an object are all different, in the order
in which they came first, and each has the value that came last.  Strings and keys may hold
surrogates.
-/

namespace ColorMod

inductive Json where
  | null
  | bool (b : Bool)
  | int (n : Int)
  | float (x : Float)
  | string (s : CodeText)
  | array (items : List Json)
  | object (members : List (CodeText × Json))
  deriving Inhabited

namespace Json

/-- The members of an object. -/
abbrev Members := List (CodeText × Json)

/-- The members with a value set for a key. -/
def setMember (members : Members) (key : CodeText) (value : Json) : Members :=
  if members.any fun m => m.1 == key then
    members.map fun m => if m.1 == key then (key, value) else m
  else
    members ++ [(key, value)]

/-- The members of which the last of equal keys counts. -/
def ofMembers (members : Members) : Members :=
  members.foldl (fun ms m => setMember ms m.1 m.2) []

mutual

/-- The value with the members of each object in it merged. -/
def merged : Json → Json
  | array items => array (mergedItems items)
  | object members => object (ofMembers (mergedMembers members))
  | value => value

def mergedItems : List Json → List Json
  | [] => []
  | item :: items => item.merged :: mergedItems items

def mergedMembers : Members → Members
  | [] => []
  | (key, value) :: members => (key, value.merged) :: mergedMembers members

end

/-- The kind of a value, as messages name it. -/
def kindName : Json → String
  | null => "NoneType"
  | bool _ => "bool"
  | int _ => "int"
  | float _ => "float"
  | string _ => "str"
  | array _ => "list"
  | object _ => "dict"

/-- The string that a value is, if it is one without surrogates. -/
def text? : Json → Option String
  | string s => s.toString?
  | _ => none

mutual

/-- A value as messages show it. -/
def shown : Json → String
  | null => "None"
  | bool true => "True"
  | bool false => "False"
  | int n => toString n
  | float x => Decimal.floatText x
  | string s => Text.quoted s
  | array items => "[" ++ ", ".intercalate (shownItems items) ++ "]"
  | object members => "\x7b" ++ ", ".intercalate (shownMembers members) ++ "\x7d"

def shownItems : List Json → List String
  | [] => []
  | item :: items => item.shown :: shownItems items

def shownMembers : List (CodeText × Json) → List String
  | [] => []
  | (key, value) :: members => (Text.quoted key ++ ": " ++ value.shown) :: shownMembers members

end

end Json

end ColorMod
