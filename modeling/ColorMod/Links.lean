import ColorMod.Files
import ColorMod.Keys

/-!
# Links

A link stands at a path and leads to a text, which is followed from the directory that the link is in.
`Links` are those that can be seen, where no directory on the way is closed.

`Links.resolve` says which path a text leads to.  Links that lead in a circle have no path.  What
follows such a link is then taken by its names alone, so a step up leads back out of the circle; if it
does not, there is an error.

* `Links.follow`: names are followed one by one, and the links that are being followed are kept.
* `Links.real?`: where a path is, which may have links on it.
* `Links.follow_of_le`: links may be followed in one another as deep as there are links, and nothing
  changes where they may be followed deeper.
-/

namespace ColorMod

/-- The links of a file system, and the texts that they lead to. -/
structure Links where
  targets : List (Path × String) := []
  deriving DecidableEq, Inhabited

/-- Why a text leads to no path. -/
inductive PathError where
  | nullCharacter
  | circle (path : Path)
  deriving DecidableEq, Repr

namespace Links

/-- Why names are not followed any more. -/
inductive Stop where
  | nullCharacter
  /-- A link that is being followed already, and the names that are left. -/
  | circle (parts rest : List String)
  deriving DecidableEq

/-- The text that the next name leads to, if it is the name of a link. -/
def target? (links : Links) (parts : List String) (name : String) : Option String :=
  if name = "" ∨ name = "." ∨ name = ".." then none
  else links.targets.lookup ⟨parts ++ [name]⟩

/-- Follows names from a directory.  The text of a link is followed by `enter`. -/
def followNames (links : Links) (enter : Path → String → Except Stop (List String))
    (parts : List String) : List String → Except Stop (List String)
  | [] => .ok parts
  | name :: names =>
    if '\x00' ∈ name.toList then .error .nullCharacter
    else
      match links.target? parts name with
      | none => links.followNames enter (Path.step parts name) names
      | some text =>
        match enter ⟨parts ++ [name]⟩ text with
        | .ok parts => links.followNames enter parts names
        | .error .nullCharacter => .error .nullCharacter
        | .error (.circle parts rest) => .error (.circle parts (rest ++ names))

/-- Where the names of a text start in a directory. -/
def start (directory : Path) (text : String) : List String :=
  if Path.isAbsoluteText text then [] else directory.parts

/-- Follows the text of a link, while other links are being followed.  No more of them than there are
links can be followed in one another. -/
def enter (links : Links) : Nat → List Path → Path → String → Except Stop (List String)
  | 0, _, link, _ => .error (.circle link.parts [])
  | depth + 1, opened, link, text =>
    if link ∈ opened then .error (.circle link.parts [])
    else
      links.followNames (links.enter depth (link :: opened)) (start link.parent text)
        (Text.split text '/')

/-- Follows names from a directory. -/
def follow (links : Links) (parts names : List String) : Except Stop (List String) :=
  links.followNames (links.enter links.targets.length []) parts names

/-- Where a path is, unless the links on it lead in a circle. -/
def real? (links : Links) (p : Path) : Option Path :=
  if links.targets.any fun link => p.isWithin link.1 then
    match links.follow [] p.parts with
    | .ok parts => some ⟨parts⟩
    | .error _ => none
  else
    some p

/-- The path that names lead to from a directory. -/
def resolveNames (links : Links) (parts names : List String) : Except PathError Path :=
  match links.follow parts names with
  | .ok parts => .ok ⟨parts⟩
  | .error .nullCharacter => .error .nullCharacter
  | .error (.circle parts rest) =>
    let p : Path := ⟨rest.foldl Path.step parts⟩
    if p.parts.any fun name => '\x00' ∈ name.toList then .error .nullCharacter
    else if (links.real? p).isNone then .error (.circle p)
    else .ok p

/-- The path that a text leads to from `base`. -/
def resolve (links : Links) (base : Path) (text : String) : Except PathError Path :=
  links.resolveNames (start base text) (Text.split text '/')

/-! ## Enough depth -/

section

variable {links : Links} {enter enter' : Path → String → Except Stop (List String)}

theorem lookup_of_target? {parts : List String} {name text : String}
    (h : links.target? parts name = some text) :
    links.targets.lookup ⟨parts ++ [name]⟩ = some text := by
  unfold target? at h
  split at h
  · cases h
  · exact h

/-- Only the texts of links are followed. -/
theorem followNames_congr
    (h : ∀ link text, links.targets.lookup link = some text → enter link text = enter' link text)
    (parts names : List String) :
    links.followNames enter parts names = links.followNames enter' parts names := by
  induction names generalizing parts with
  | nil => rfl
  | cons name names ih =>
    rw [followNames, followNames]
    cases htarget : links.target? parts name with
    | none => simp only [ih]
    | some text => simp only [h _ _ (lookup_of_target? htarget), ih]

/-- What counts is that each link that is not being followed can be. -/
theorem enter_of_le {depth more : Nat} {opened : List Path} {link : Path} {text : String}
    (hlink : links.targets.lookup link = some text)
    (hdepth : unseenKeys links.targets opened ≤ depth) (hmore : depth ≤ more) :
    links.enter more opened link text = links.enter depth opened link text := by
  induction depth generalizing more opened link text with
  | zero =>
    have hopened : link ∈ opened := by
      by_cases hmem : link ∈ opened
      · exact hmem
      · have := unseenKeys_cons_lt hmem hlink
        omega
    cases more with
    | zero => rfl
    | succ more => rw [enter, enter, if_pos hopened]
  | succ depth ih =>
    cases more with
    | zero => omega
    | succ more =>
      rw [enter, enter]
      by_cases hopened : link ∈ opened
      · rw [if_pos hopened, if_pos hopened]
      · have hless := unseenKeys_cons_lt hopened hlink
        rw [if_neg hopened, if_neg hopened]
        exact followNames_congr
          (fun link' text' hlink' => ih hlink' (by omega) (Nat.le_of_succ_le_succ hmore)) _ _

/-- There are no more links to follow in one another than `follow` can. -/
theorem follow_of_le {more : Nat} (hmore : links.targets.length ≤ more) (parts names : List String) :
    links.followNames (links.enter more []) parts names = links.follow parts names :=
  followNames_congr
    (fun _ _ hlink => enter_of_le hlink (List.length_filter_le _ links.targets) hmore) parts names

end

end Links

end ColorMod
