import ColorMod.Proofs.SettingsCache

/-!
# Loading stays in the data directory

The text of a configuration name is followed from the data directory on, and may lead anywhere.
Where there are no links, what it leads to is a path again, made of a part of the directory and of
plain names, so that comparing the parts one by one tells where it is.

* `not_mem_of_mem_split`, `exists_mem_split_iff`: the parts of a text have no separator, and all its
  other characters.
* `Links.resolve_empty`: without links, a text leads where its names say.
* `extends_resolve`, `resolve_isWithin_iff`: where a text leads to, and when that is within the
  directory it starts from.
* `isWithin_iff`: a path within a directory is made of the parts of the directory and more parts.
* `loadConfig_eq`: a load, once the data directory is known.
* `LoadDependsOn.file?_ne`: a load depends on one file only.
* `loadConfig_confined`: which file a load depends on, and what it does with a name that leads out
  of the directory.
-/

namespace ColorMod

/-! ## Parts of a text -/

namespace Text

theorem not_mem_of_mem_splitFrom {separator : Char} {cs : List Char} :
    ∀ {part : List Char}, separator ∉ part → ∀ p ∈ splitFrom separator part cs, separator ∉ p := by
  induction cs with
  | nil =>
    intro part hpart p hp
    rw [splitFrom, List.mem_singleton] at hp
    rw [hp, List.mem_reverse]
    exact hpart
  | cons c cs ih =>
    intro part hpart p hp
    rw [splitFrom] at hp
    split at hp
    · rcases List.mem_cons.mp hp with rfl | hp
      · rw [List.mem_reverse]
        exact hpart
      · exact ih List.not_mem_nil p hp
    · next hc =>
      refine ih (fun hmem => ?_) p hp
      rcases List.mem_cons.mp hmem with rfl | hmem
      · exact hc (beq_self_eq_true _)
      · exact hpart hmem

/-- A part between separators has no separator in it. -/
theorem not_mem_of_mem_split {s part : String} {separator : Char} (h : part ∈ split s separator) :
    separator ∉ part.toList := by
  obtain ⟨cs, hcs, rfl⟩ := List.mem_map.mp h
  rw [String.toList_ofList]
  exact not_mem_of_mem_splitFrom List.not_mem_nil cs hcs

theorem exists_mem_splitFrom_iff {c separator : Char} (hc : c ≠ separator) {cs : List Char} :
    ∀ {part : List Char}, (∃ p ∈ splitFrom separator part cs, c ∈ p) ↔ c ∈ part ∨ c ∈ cs := by
  induction cs with
  | nil => simp [splitFrom]
  | cons d cs ih =>
    intro part
    rw [splitFrom]
    split
    · next hd =>
      simp only [List.mem_cons, or_and_right, exists_or, exists_eq_left, ih, List.mem_reverse,
        eq_of_beq hd, hc, List.not_mem_nil, false_or]
    · rw [ih, List.mem_cons, List.mem_cons, or_assoc, or_left_comm]

theorem exists_mem_split_iff {s : String} {c separator : Char} (hc : c ≠ separator) :
    (∃ part ∈ split s separator, c ∈ part.toList) ↔ c ∈ s.toList := by
  have hparts : (∃ p ∈ splitFrom separator [] s.toList, c ∈ p) ↔ c ∈ [] ∨ c ∈ s.toList :=
    exists_mem_splitFrom_iff hc
  rw [or_iff_right List.not_mem_nil] at hparts
  rw [← hparts, split]
  constructor
  · rintro ⟨part, hpart, hmem⟩
    obtain ⟨p, hp, rfl⟩ := List.mem_map.mp hpart
    exact ⟨p, hp, by rwa [String.toList_ofList] at hmem⟩
  · rintro ⟨p, hp, hmem⟩
    exact ⟨_, List.mem_map_of_mem hp, by rwa [String.toList_ofList]⟩

end Text

/-! ## Paths -/

namespace Path

/-- A name that an entry of a directory can have: it leads one step down and nowhere else. -/
def IsName (name : String) : Prop :=
  name ≠ "" ∧ name ≠ "." ∧ name ≠ ".." ∧ '/' ∉ name.toList

/-- The path is made of the parts of the directory and of at least one more name. -/
def IsBelow (p directory : Path) : Prop :=
  ∃ names, names ≠ [] ∧ (∀ name ∈ names, IsName name) ∧ p.parts = directory.parts ++ names

theorem isWithin_iff {p directory : Path} :
    p.isWithin directory ↔ ∃ names, p.parts = directory.parts ++ names := by
  rw [isWithin, List.isPrefixOf_iff_prefix]
  exact exists_congr fun _ => eq_comm

/-- Some of the parts at the front stay, and then there are names. -/
def Extends (kept parts : List String) : Prop :=
  ∃ count names, parts = kept.take count ++ names ∧ ∀ name ∈ names, IsName name

theorem Extends.step {kept parts : List String} {name : String} (h : Extends kept parts)
    (hname : '/' ∉ name.toList) : Extends kept (step parts name) := by
  obtain ⟨count, names, rfl, hnames⟩ := h
  unfold Path.step
  split
  · exact ⟨count, names, rfl, hnames⟩
  next hempty =>
  rw [not_or] at hempty
  split
  · -- one step up takes the last name away, or else a part that was kept
    rcases List.eq_nil_or_concat names with rfl | ⟨front, last, hnamed⟩
    · refine ⟨(kept.take count).length - 1, [], ?_, fun _ h => (by cases h)⟩
      rw [List.append_nil, List.append_nil, List.dropLast_eq_take, List.take_take]
      congr 1
      have := List.length_take_le count kept
      omega
    · rw [List.concat_eq_append] at hnamed
      subst hnamed
      refine ⟨count, front, ?_, fun name h => hnames name (List.mem_append_left _ h)⟩
      rw [← List.append_assoc, List.dropLast_concat]
  · next hup =>
    refine ⟨count, names ++ [name], by rw [List.append_assoc], fun n hn => ?_⟩
    rcases List.mem_append.mp hn with hn | hn
    · exact hnames n hn
    · rw [List.mem_singleton.mp hn]
      exact ⟨hempty.1, hempty.2, hup, hname⟩

theorem extends_descend (base : Path) (text : String) :
    Extends base.parts (base.descend text).parts := by
  have hfold : ∀ names : List String, (∀ name ∈ names, '/' ∉ name.toList) →
      ∀ parts, Extends base.parts parts → Extends base.parts (names.foldl Path.step parts) := by
    intro names
    induction names with
    | nil => intro _ parts h; exact h
    | cons name names ih =>
      intro hnames parts h
      obtain ⟨hname, hnames⟩ := List.forall_mem_cons.mp hnames
      exact ih hnames _ (h.step hname)
  exact hfold _ (fun _ => Text.not_mem_of_mem_split) _ ⟨base.parts.length, [], by simp, by simp⟩

/-- A text leads to a path that keeps some parts of where it starts, followed by names. -/
theorem extends_resolve (base : Path) (text : String) :
    Extends base.parts (base.resolve text).parts := by
  unfold resolve
  dsimp only
  split
  · obtain ⟨count, names, hparts, hnames⟩ := extends_descend ⟨[]⟩ text
    exact ⟨0, names, by rw [hparts, List.take_nil, List.take_zero], hnames⟩
  · exact extends_descend base text

/-- Within the directory that it starts from, a text leads to the directory itself or below it. -/
theorem resolve_isWithin_iff {base : Path} {text : String} :
    (base.resolve text).isWithin base ↔
      base.resolve text = base ∨ (base.resolve text).IsBelow base := by
  rw [isWithin_iff]
  constructor
  · rintro ⟨rest, hrest⟩
    obtain ⟨count, names, hparts, hnames⟩ := extends_resolve base text
    have hsuffix : rest = names.drop (base.parts.length - (base.parts.take count).length) := by
      have hdrop := congrArg (List.drop base.parts.length) (hrest.symm.trans hparts)
      rwa [List.drop_left, List.drop_append,
        List.drop_eq_nil_of_le (List.length_take_le' count base.parts), List.nil_append] at hdrop
    by_cases hnil : rest = []
    · left
      rw [hnil, List.append_nil] at hrest
      cases hpath : base.resolve text
      rw [hpath] at hrest
      exact congrArg Path.mk hrest
    · refine .inr ⟨rest, hnil, fun name hname => hnames name ?_, hrest⟩
      rw [hsuffix] at hname
      exact List.mem_of_mem_drop hname
  · rintro (heq | ⟨names, -, -, hparts⟩)
    · exact ⟨[], by rw [heq, List.append_nil]⟩
    · exact ⟨names, hparts⟩

/-- A name that another one begins with is another name, and nothing in that directory is within the
first one. -/
theorem not_isWithin_of_longer_name {p directory : Path} {above rest : List String}
    {name more : String} (hdirectory : directory.parts = above ++ [name])
    (hp : p.parts = above ++ (name ++ more) :: rest) (hmore : more ≠ "") :
    ¬p.isWithin directory := by
  rw [isWithin_iff, hdirectory, hp]
  rintro ⟨names, h⟩
  rw [List.append_assoc, List.append_cancel_left_eq, List.singleton_append, List.cons.injEq] at h
  have hlength := congrArg String.length h.1
  rw [String.length_append] at hlength
  have hempty : more.length = 0 := by omega
  exact hmore (String.length_eq_zero_iff.mp hempty)

end Path

/-! ## Without links -/

namespace Links

theorem followNames_empty {names : List String} (h : ∀ name ∈ names, '\x00' ∉ name.toList)
    (enter : Path → String → Except Stop (List String)) (parts : List String) :
    ({} : Links).followNames enter parts names = .ok (names.foldl Path.step parts) := by
  induction names generalizing parts with
  | nil => rfl
  | cons name names ih =>
    obtain ⟨hname, hnames⟩ := List.forall_mem_cons.mp h
    have htarget : ({} : Links).target? parts name = none := ite_self none
    rw [followNames, if_neg hname, htarget]
    exact ih hnames _

theorem followNames_empty_of_null {names : List String} (h : ∃ name ∈ names, '\x00' ∈ name.toList)
    (enter : Path → String → Except Stop (List String)) (parts : List String) :
    ({} : Links).followNames enter parts names = .error .nullCharacter := by
  induction names generalizing parts with
  | nil => simp at h
  | cons name names ih =>
    have htarget : ({} : Links).target? parts name = none := ite_self none
    rw [followNames, htarget]
    split
    · rfl
    · next hname =>
      obtain ⟨n, hn, hnull⟩ := h
      rcases List.mem_cons.mp hn with rfl | hn
      · exact absurd hnull hname
      · exact ih ⟨n, hn, hnull⟩ _

/-- A text leads where its names say, unless it has a null character. -/
theorem resolve_empty (base : Path) (text : String) :
    ({} : Links).resolve base text =
      if '\x00' ∈ text.toList then .error .nullCharacter else .ok (base.resolve text) := by
  have hsplit : (∃ part ∈ Text.split text '/', '\x00' ∈ part.toList) ↔ '\x00' ∈ text.toList :=
    Text.exists_mem_split_iff (by decide)
  rw [resolve, resolveNames, follow]
  by_cases hnull : '\x00' ∈ text.toList
  · rw [if_pos hnull, followNames_empty_of_null (hsplit.mpr hnull)]
  · have hnames : ∀ name ∈ Text.split text '/', '\x00' ∉ name.toList :=
      fun name hname h => hnull (hsplit.mp ⟨name, hname, h⟩)
    rw [if_neg hnull, followNames_empty hnames, Path.resolve, Path.descend, start]
    dsimp only
    split <;> rfl

/-- Every path is where it says. -/
theorem real?_empty (p : Path) : ({} : Links).real? p = some p := rfl

end Links

/-! ## What is looked at -/

namespace Files

/-- There is a file at the path, or nothing. -/
def FileOrNothing (files : Files) (p : Path) : Prop :=
  ∀ entry, files.entry? p = some entry → ∃ bytes changed, entry = .file bytes changed

/-- Other files, in the same directories, that are the same except for one path. -/
structure DifferAt (files files' : Files) (p : Path) : Prop where
  elsewhere : ∀ q, q ≠ p → files'.entry? q = files.entry? q
  here : files'.entry? p = files.entry? p ∨ files.FileOrNothing p ∧ files'.FileOrNothing p

theorem FileOrNothing.not_isDirectory {files : Files} {p : Path} (h : files.FileOrNothing p) :
    ¬files.isDirectory p := by
  unfold isDirectory
  split
  · next hentry =>
    obtain ⟨_, _, hfile⟩ := h _ hentry
    cases hfile
  · exact Bool.false_ne_true

theorem FileOrNothing.barAt? {files : Files} {p : Path} (h : files.FileOrNothing p) :
    files.barAt? p = if 255 < p.name.utf8ByteSize && files.isDirectory p.parent then
      some .nameTooLong else none := by
  unfold Files.barAt?
  split
  · rfl
  · split
    · next hentry =>
      obtain ⟨_, _, hfile⟩ := h _ hentry
      cases hfile
    · rfl

namespace DifferAt

variable {files files' : Files} {p : Path} (h : files.DifferAt files' p)

include h

theorem isDirectory (q : Path) : files'.isDirectory q = files.isDirectory q := by
  unfold Files.isDirectory
  by_cases hq : q = p
  · subst hq
    rcases h.here with hsame | ⟨hfile, hfile'⟩
    · rw [hsame]
    · have hnot := Bool.eq_false_iff.mpr hfile.not_isDirectory
      have hnot' := Bool.eq_false_iff.mpr hfile'.not_isDirectory
      exact hnot'.trans hnot.symm
  · rw [h.elsewhere q hq]

theorem bar? (q : Path) : files'.bar? q = files.bar? q := by
  have hbarAt (q : Path) : files'.barAt? q = files.barAt? q := by
    by_cases hq : q = p
    · subst hq
      rcases h.here with hsame | ⟨hfile, hfile'⟩
      · rw [Files.barAt?, Files.barAt?, hsame, h.isDirectory]
      · rw [hfile.barAt?, hfile'.barAt?, h.isDirectory]
    · rw [Files.barAt?, Files.barAt?, h.elsewhere q hq, h.isDirectory]
  simp only [Files.bar?, hbarAt]

theorem look_of_ne {q : Path} (hq : q ≠ p) : files'.look q = files.look q := by
  rw [Files.look, Files.look, h.bar?, h.elsewhere q hq]

/-- Where the same is not seen, no directory is seen. -/
theorem look_eq_or (q : Path) : files'.look q = files.look q ∨
    (∃ entry, files.look q = .ok entry ∧ entry ≠ some .directory) ∧
    ∃ entry, files'.look q = .ok entry ∧ entry ≠ some .directory := by
  by_cases hq : q = p
  · subst hq
    rcases h.here with hsame | ⟨hfile, hfile'⟩
    · exact .inl (by rw [Files.look, Files.look, h.bar?, hsame])
    · rw [Files.look, Files.look, h.bar?]
      split
      · exact .inl rfl
      · refine .inr ⟨⟨_, rfl, fun heq => ?_⟩, _, rfl, fun heq => ?_⟩
        · obtain ⟨_, _, hentry⟩ := hfile _ heq
          cases hentry
        · obtain ⟨_, _, hentry⟩ := hfile' _ heq
          cases hentry
  · exact .inl (h.look_of_ne hq)

end DifferAt

end Files

section

variable {around : Surroundings} {files' : Files} {p : Path}

theorem firstDirectory?_cons (around : Surroundings) (candidate : Path) (candidates : List Path) :
    firstDirectory? around (candidate :: candidates) =
      match around.look candidate with
      | .error failure => .error (.notSeen candidate failure)
      | .ok (some .directory) => .ok (some candidate)
      | .ok _ => firstDirectory? around candidates := by
  rw [firstDirectory?]
  rcases around.look candidate with failure | _ | entry
  · rfl
  · rfl
  · cases entry <;> rfl

theorem firstDirectory?_cons_of_passed {candidate : Path} {candidates : List Path}
    {entry : Option Entry} (hlook : around.look candidate = .ok entry)
    (hentry : entry ≠ some .directory) :
    firstDirectory? around (candidate :: candidates) = firstDirectory? around candidates := by
  rw [firstDirectory?_cons, hlook]
  split
  · next h => cases h
  · next h => cases h; exact absurd rfl hentry
  · rfl

theorem firstDirectory?_of_differAt (h : around.files.DifferAt files' p) (candidates : List Path) :
    firstDirectory? { around with files := files' } candidates =
      firstDirectory? around candidates := by
  induction candidates with
  | nil => rfl
  | cons candidate candidates ih =>
    cases hreal : around.links.real? candidate with
    | none =>
      have hlook : around.look candidate = .ok none := by rw [Surroundings.look, hreal]
      have hlook' : Surroundings.look { around with files := files' } candidate = .ok none := by
        rw [Surroundings.look, hreal]
      rw [firstDirectory?_cons_of_passed hlook nofun, firstDirectory?_cons_of_passed hlook' nofun, ih]
    | some real =>
      have hlook : around.look candidate = around.files.look real := by
        rw [Surroundings.look, hreal]
      have hlook' : Surroundings.look { around with files := files' } candidate =
          files'.look real := by
        rw [Surroundings.look, hreal]
      rcases h.look_eq_or real with hsame | ⟨⟨entry, hseen, hentry⟩, entry', hseen', hentry'⟩
      · rw [firstDirectory?_cons, firstDirectory?_cons, hlook, hlook', hsame, ih]
      · rw [firstDirectory?_cons_of_passed (hlook.trans hseen) hentry,
          firstDirectory?_cons_of_passed (hlook'.trans hseen') hentry', ih]

/-- Which files there are does not matter for where they are looked for. -/
theorem dataDirectory_of_differAt (h : around.files.DifferAt files' p) (named : Option String) :
    dataDirectory { around with files := files' } named = dataDirectory around named := by
  unfold dataDirectory
  dsimp only
  simp only [firstDirectory?_of_differAt h]
  rfl

end

/-! ## A load -/

/-- The path that the name of a configuration file leads to. -/
def configTarget (directory : Path) (name : String) : Path :=
  directory.resolve (jsonFileName name)

theorem null_mem_jsonFileName {name : String} :
    '\x00' ∈ (jsonFileName name).toList ↔ '\x00' ∈ name.toList := by
  unfold jsonFileName
  split
  · rfl
  · simp

section

variable {around : Surroundings} {named : Option String} {directory : Path} {cache : Cache}
  {name : String} {check : Check}

theorem findConfig_eq_match (around : Surroundings) (directory : Path) (name : String) :
    findConfig around directory name =
      match around.links.resolve directory (jsonFileName name) with
      | .error error => .error (.notFollowed error)
      | .ok path =>
        if !path.isWithin directory then .error (.outside path directory)
        else
          match around.look path with
          | .error failure => .error (.notSeen path failure)
          | .ok (some (.file bytes changed)) => .ok (path, bytes, changed)
          | .ok _ => .error (.noFile path) := by
  rw [findConfig, pathFrom]
  cases around.links.resolve directory (jsonFileName name) with
  | error error => rfl
  | ok path =>
    change (if !path.isWithin directory then _ else _) = _
    dsimp only
    split
    · rfl
    · rcases around.look path with failure | _ | entry
      · rfl
      · rfl
      · cases entry <;> rfl

theorem findConfig_eq (hlinks : around.links = {}) (directory : Path) (name : String) :
    findConfig around directory name =
      if '\x00' ∈ name.toList then .error (.notFollowed .nullCharacter)
      else if !(configTarget directory name).isWithin directory then
        .error (.outside (configTarget directory name) directory)
      else
        match around.files.look (configTarget directory name) with
        | .error failure => .error (.notSeen (configTarget directory name) failure)
        | .ok (some (.file bytes changed)) => .ok (configTarget directory name, bytes, changed)
        | .ok _ => .error (.noFile (configTarget directory name)) := by
  have hlook (q : Path) : around.look q = around.files.look q := by
    rw [Surroundings.look, hlinks, Links.real?_empty]
  rw [findConfig_eq_match, hlinks, Links.resolve_empty]
  simp only [null_mem_jsonFileName]
  by_cases hnull : '\x00' ∈ name.toList
  · rw [if_pos hnull, if_pos hnull]
  · rw [if_neg hnull, if_neg hnull, ← hlook, configTarget]

theorem loadConfig_eq (hdirectory : dataDirectory around named = .ok directory) :
    loadConfig around cache name check named =
      match findConfig around directory name with
      | .error e => { outcome := .error e, cache }
      | .ok (path, _, .error failure) => { outcome := .error (.notDated path failure), cache }
      | .ok (path, bytes, .ok changed) =>
        loadFound around.limits cache check path bytes changed := by
  rewrite [loadConfig, hdirectory]
  dsimp only
  rcases findConfig around directory name with e | ⟨path, bytes, _ | changed⟩ <;> rfl

/-- A name that leads out of the directory ends the load. -/
theorem loadConfig_of_not_isWithin (hlinks : around.links = {})
    (hdirectory : dataDirectory around named = .ok directory)
    (h : ¬(configTarget directory name).isWithin directory) :
    loadConfig around cache name check named =
      { outcome := .error (if '\x00' ∈ name.toList then .notFollowed .nullCharacter
          else .outside (configTarget directory name) directory)
        cache } := by
  rw [loadConfig_eq hdirectory, findConfig_eq hlinks]
  by_cases hnull : '\x00' ∈ name.toList
  · rw [if_pos hnull, if_pos hnull]
  · rw [if_neg hnull, if_neg hnull, if_pos (by simpa using h)]

theorem loadConfig_of_file {bytes : List UInt8} {changed : Int} (hlinks : around.links = {})
    (hdirectory : dataDirectory around named = .ok directory) (hnull : '\x00' ∉ name.toList)
    (hwithin : (configTarget directory name).isWithin directory)
    (hbar : around.files.bar? (configTarget directory name) = none)
    (hfile : around.files.file? (configTarget directory name) = some (bytes, changed)) :
    loadConfig around cache name check named =
      loadFound around.limits cache check (configTarget directory name) (.ok bytes) changed := by
  have hlook : around.files.look (configTarget directory name) =
      .ok (some (.file (.ok bytes) (.ok changed))) := by
    rw [Files.look, hbar]
    exact congrArg Except.ok (Files.entry?_eq_file (Files.file?_eq_some_iff.mp hfile))
  rw [loadConfig_eq hdirectory, findConfig_eq hlinks, if_neg hnull, if_neg (by simpa using hwithin),
    hlook]

/-- With other files, what a load gives can be something else. -/
def LoadDependsOn (around : Surroundings) (cache : Cache) (name : String) (check : Check)
    (named : Option String) (p : Path) : Prop :=
  ∃ files', around.files.DifferAt files' p ∧
    loadConfig { around with files := files' } cache name check named ≠
      loadConfig around cache name check named

/-- A load depends on the file that its name leads to, if on any. -/
theorem LoadDependsOn.look_ne {p : Path} (hlinks : around.links = {})
    (h : LoadDependsOn around cache name check named p)
    (hdirectory : dataDirectory around named = .ok directory) :
    (configTarget directory name).isWithin directory ∧
    ∃ files', around.files.DifferAt files' p ∧
      files'.look (configTarget directory name) ≠
        around.files.look (configTarget directory name) := by
  obtain ⟨files', hdiffer, hne⟩ := h
  have hlinks' : Surroundings.links { around with files := files' } = {} := hlinks
  have hdirectory' : dataDirectory { around with files := files' } named = .ok directory :=
    (dataDirectory_of_differAt hdiffer named).trans hdirectory
  constructor
  · by_cases hwithin : (configTarget directory name).isWithin directory
    · exact hwithin
    · exact absurd ((loadConfig_of_not_isWithin hlinks' hdirectory' hwithin).trans
        (loadConfig_of_not_isWithin hlinks hdirectory hwithin).symm) hne
  · refine ⟨files', hdiffer, fun hlook => hne ?_⟩
    rw [loadConfig_eq hdirectory', loadConfig_eq hdirectory, findConfig_eq hlinks',
      findConfig_eq hlinks]
    simp only [hlook]

/-- Where there are no links, and once the data directory is known, a load depends on no file but the
one that its name leads to, which lies below the directory, by its parts and without steps up; only
where the directory is none can that be a file in its very place.  A name that leads elsewhere, be it
to a directory of a longer name, is refused whatever files there are and whatever is in the cache,
which stays: as outside of the directory, or for a null character, which is found first.  A file
within the directory is loaded. -/
theorem loadConfig_confined (hlinks : around.links = {})
    (hdirectory : dataDirectory around named = .ok directory)
    (cache : Cache) (name : String) (check : Check) :
    let target := configTarget directory name
    let loaded := loadConfig around cache name check named
    (∀ p, LoadDependsOn around cache name check named p → p = target ∧
      (p.IsBelow directory ∨ p = directory ∧ ¬around.files.isDirectory directory)) ∧
    (¬target.isWithin directory → loaded =
      { outcome := .error (if '\x00' ∈ name.toList then .notFollowed .nullCharacter
          else .outside target directory)
        cache }) ∧
    (target.isWithin directory ↔ ∃ names, target.parts = directory.parts ++ names) ∧
    (∀ above last more rest, directory.parts = above ++ [last] → more ≠ "" →
      target.parts = above ++ (last ++ more) :: rest → ¬target.isWithin directory) ∧
    ∀ bytes changed, target.isWithin directory → '\x00' ∉ name.toList →
      around.files.bar? target = none → around.files.file? target = some (bytes, changed) →
      loaded = loadFound around.limits cache check target (.ok bytes) changed := by
  intro target loaded
  refine ⟨fun p hp => ?_, loadConfig_of_not_isWithin hlinks hdirectory, Path.isWithin_iff,
    fun above last more rest habove hmore htarget =>
      Path.not_isWithin_of_longer_name habove htarget hmore,
    fun bytes changed hwithin hnull hbar hfile =>
      loadConfig_of_file hlinks hdirectory hnull hwithin hbar hfile⟩
  obtain ⟨hwithin, files', hdiffer, hlook⟩ := hp.look_ne hlinks hdirectory
  have htarget : p = target := by
    by_cases hp : p = target
    · exact hp
    · exact absurd (hdiffer.look_of_ne (Ne.symm hp)) hlook
  refine ⟨htarget, ?_⟩
  rcases Path.resolve_isWithin_iff.mp hwithin with hsame | hbelow
  · refine .inr ⟨htarget.trans hsame, fun hisDirectory => hlook ?_⟩
    have hp : p = directory := htarget.trans hsame
    rcases hdiffer.here with hentry | ⟨hfile, -⟩
    · change files'.look target = around.files.look target
      rw [← htarget, Files.look, Files.look, hdiffer.bar?, hentry]
    · rw [hp] at hfile
      exact absurd hisDirectory hfile.not_isDirectory
  · exact .inl (htarget ▸ hbelow)

/-- A file in the data directory, and one in a directory of a longer name. -/
def siblingDirectories : Surroundings :=
  { files := (Files.write {} ⟨["data", "x.json"]⟩ [] 1).write ⟨["database", "x.json"]⟩ [] 1 }

/-- The name `../database/x` is refused, and so is `../a` with a null character after it, but for
another reason. -/
theorem loadConfig_confined_siblingDirectories :
    let load := fun name =>
      (loadConfig siblingDirectories [] name Settings.check (some "/data")).outcome
    siblingDirectories.links = {} ∧
    dataDirectory siblingDirectories (some "/data") = .ok ⟨["data"]⟩ ∧
    ¬(configTarget ⟨["data"]⟩ "../database/x").isWithin ⟨["data"]⟩ ∧
    load "../database/x" = .error (.outside ⟨["database", "x.json"]⟩ ⟨["data"]⟩) ∧
    ¬(configTarget ⟨["data"]⟩ "../a\x00").isWithin ⟨["data"]⟩ ∧
    load "../a\x00" = .error (.notFollowed .nullCharacter) := by
  intro load
  have hdirectory : dataDirectory siblingDirectories (some "/data") = .ok ⟨["data"]⟩ := rfl
  have hsibling : ¬(configTarget ⟨["data"]⟩ "../database/x").isWithin ⟨["data"]⟩ := by
    decide +kernel
  have hnull : ¬(configTarget ⟨["data"]⟩ "../a\x00").isWithin ⟨["data"]⟩ := by decide +kernel
  obtain ⟨-, hrefused, -⟩ := loadConfig_confined rfl hdirectory [] "../database/x" Settings.check
  obtain ⟨-, hrefused', -⟩ := loadConfig_confined rfl hdirectory [] "../a\x00" Settings.check
  refine ⟨rfl, hdirectory, hsibling, ?_, hnull, ?_⟩
  · exact (congrArg Loaded.outcome (hrefused hsibling)).trans rfl
  · exact (congrArg Loaded.outcome (hrefused' hnull)).trans rfl

end

end ColorMod
