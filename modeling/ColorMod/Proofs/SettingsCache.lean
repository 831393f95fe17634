import ColorMod.Proofs.ValidSettings

/-!
# The cache of settings files

A program that loads its settings lives through a `Session`: files are written and removed, the
environment and the candidates change, the cache is cleared, and settings are loaded.  As long as no
file is given two contents with one time of change, the cache cannot be seen: each load gives what
`Settings.read` gives, which knows of no cache.

* `Files.answers?_write`, `Files.answers?_remove`: which file is at a path after a change.
* `Settings.cache_load`: what one load adds to the cache.
* `Session.Traced.step`, `Session.Traced.run`: each object in the cache is what the check made of a
  content that its file was given, and none is of a file that cannot be read.
* `Session.fresh_run`: so what it keeps of a file that is there is what the file says now.
* `Settings.load_eq_read`: a load at any point of a session.
-/

namespace ColorMod

open Json (Members)

/-! ## Files -/

theorem lookup_filter_fst {κ β : Type} [BEq κ] [LawfulBEq κ] (keep : κ → Bool) (k : κ)
    (l : List (κ × β)) :
    (l.filter fun e => keep e.1).lookup k = if keep k then l.lookup k else none := by
  induction l with
  | nil => simp
  | cons e l ih =>
    obtain ⟨key, value⟩ := e
    rw [List.filter_cons, List.lookup_cons]
    by_cases hk : k = key
    · subst hk
      by_cases hkeep : keep k
      · simp [hkeep]
      · simp [hkeep, ih]
    · have hne : (k == key) = false := beq_false_of_ne hk
      dsimp only
      rw [hne, ← ih]
      split
      · rw [List.lookup_cons, hne]
      · rfl

namespace Files

variable (files : Files) (p q : Path)

theorem entry?_root (hroot : q.parts = []) : files.entry? q = some .directory :=
  if_pos hroot

theorem entry?_eq_lookup (hroot : q.parts ≠ []) : files.entry? q = files.entries.lookup q :=
  if_neg hroot

theorem entry?_put (entry : Entry) (hroot : q.parts ≠ []) :
    Files.entry? (files.put p entry) q = if q = p then some entry else files.entry? q := by
  rw [entry?_eq_lookup _ _ hroot, entry?_eq_lookup _ _ hroot, put, List.lookup_cons,
    lookup_filter_fst (fun key => key != p)]
  by_cases h : q = p
  · simp [h]
  · simp [h, beq_false_of_ne h]

theorem entry?_remove (hroot : q.parts ≠ []) :
    Files.entry? (files.remove p) q = if q.isWithin p then none else files.entry? q := by
  have hlookup : (files.remove p).entries.lookup q =
      if !q.isWithin p then files.entries.lookup q else none :=
    lookup_filter_fst (fun key : Path => !key.isWithin p) q files.entries
  rw [entry?_eq_lookup _ _ hroot, entry?_eq_lookup _ _ hroot, hlookup]
  cases q.isWithin p with
  | true => rfl
  | false => rfl

theorem answers?_of_root (hroot : q.parts = []) : files.answers? q = none := by
  rw [answers?, entry?_root _ _ hroot]

theorem answers?_ensureDirectory : (files.ensureDirectory p).answers? q = files.answers? q := by
  unfold ensureDirectory
  split
  · rfl
  · next h =>
    by_cases hroot : q.parts = []
    · rw [answers?_of_root _ _ hroot, answers?_of_root _ _ hroot]
    rw [answers?, answers?, entry?_put _ _ _ _ hroot]
    by_cases hq : q = p
    · rw [if_pos hq, hq, Option.not_isSome_iff_eq_none.mp h]
    · rw [if_neg hq]

/-- To make directories touches no file. -/
theorem answers?_makeDirectory : (files.makeDirectory p).answers? q = files.answers? q := by
  unfold makeDirectory
  induction List.range (p.parts.length + 1) generalizing files with
  | nil => rfl
  | cons count counts ih => rw [List.foldl_cons, ih, answers?_ensureDirectory]

/-- The file that is written is at its path, and the others stay. -/
theorem answers?_write (bytes : List UInt8) (changed : Int) :
    (files.write p bytes changed).answers? q =
      if q.parts ≠ [] ∧ q = p then some (.ok bytes, .ok changed) else files.answers? q := by
  rw [← answers?_makeDirectory files p.parent q, write]
  by_cases hroot : q.parts = []
  · rw [if_neg fun h => h.1 hroot, answers?_of_root _ _ hroot, answers?_of_root _ _ hroot]
  rw [answers?, entry?_put _ _ _ _ hroot]
  by_cases hq : q = p
  · rw [if_pos hq, if_pos ⟨hroot, hq⟩]
  · rw [if_neg hq, if_neg fun h => hq h.2, answers?]

/-- What is removed is no file any more, and the files elsewhere stay. -/
theorem answers?_remove :
    (files.remove p).answers? q = if q.isWithin p then none else files.answers? q := by
  by_cases hroot : q.parts = []
  · rw [answers?_of_root _ _ hroot, answers?_of_root _ _ hroot, ite_self]
  rw [answers?, entry?_remove _ _ _ hroot]
  by_cases hwithin : q.isWithin p
  · rw [if_pos hwithin, if_pos hwithin]
  · rw [if_neg hwithin, if_neg hwithin, answers?]

variable {files p}

theorem entry?_eq_file {answers : Answers} (h : files.answers? p = some answers) :
    files.entry? p = some (.file answers.1 answers.2) := by
  unfold answers? at h
  split at h
  · next hentry => cases h; exact hentry
  · cases h

theorem file?_eq_some_iff {bytes : List UInt8} {changed : Int} :
    files.file? p = some (bytes, changed) ↔ files.answers? p = some (.ok bytes, .ok changed) := by
  unfold file?
  split
  · next h => simp [h]
  · next h => exact iff_of_false nofun (h _ _)

end Files

namespace Surroundings

/-- The file that is seen at a path is the one where the path is. -/
theorem look_eq_file {around : Surroundings} {p : Path} {answers : Answers}
    (h : around.look p = .ok (some (.file answers.1 answers.2))) :
    ∃ real, around.links.real? p = some real ∧ around.files.answers? real = some answers := by
  unfold look at h
  split at h
  · next real hreal =>
    unfold Files.look at h
    split at h
    · split at h <;> cases h
    · rw [Except.ok.injEq] at h
      exact ⟨real, hreal, by rw [Files.answers?, h]⟩
  · cases h

end Surroundings

/-- What is found is the file at the path of the name. -/
theorem findConfig_eq_ok {around : Surroundings} {directory path : Path} {name : String}
    {answers : Answers} (h : findConfig around directory name = .ok (path, answers)) :
    pathFrom around.links directory (jsonFileName name) = .ok path ∧
      ∃ real, around.links.real? path = some real ∧
        around.files.answers? real = some answers := by
  obtain ⟨p, hp, h⟩ := bind_eq_ok_iff.mp h
  split at h
  · cases h
  obtain ⟨entry, hentry, h⟩ := bind_eq_ok_iff.mp h
  split at h
  · cases h
    cases hlook : around.look path with
    | error failure => rw [hlook] at hentry; cases hentry
    | ok seen =>
      rw [hlook] at hentry
      cases hentry
      exact ⟨hp, around.look_eq_file hlook⟩
  · cases h

theorem eq_ok_of_mapError {ε ε' β : Type} {x : Except ε β} {f : ε → ε'} {b : β}
    (h : x.mapError f = .ok b) : x = .ok b := by
  cases x with
  | error e => cases h
  | ok b' => cases h; rfl

/-! ## Loading without a cache -/

namespace Settings

/-- The settings that the file gives now. -/
def readStored (around : Surroundings) (named : Option String := none) :
    Except ConfigError Settings := do
  let directory ← dataDirectory around named
  let (path, bytes, changed) ← findConfig around directory "resolver_defaults"
  let _ ← changed.mapError (ConfigError.notDated path)
  let bytes ← bytes.mapError (ConfigError.notRead path)
  (ofMembers (← readObject around.limits path bytes)).mapError ConfigError.wrongType

/-- The settings that the file and the environment give now. -/
def read (around : Surroundings) (named : Option String := none) :
    Except ConfigError Settings := do
  let stored ← readStored around named
  (ofMembers (overridden around stored.toMembers)).mapError ConfigError.wrongType

end Settings

/-! ## Sessions -/

/-- What may happen to a program that loads its settings. -/
inductive SessionStep where
  | write (path : Path) (bytes : List UInt8) (changed : Int)
  | makeDirectory (path : Path)
  | remove (path : Path)
  | setEnvironment (environment : Environment)
  | setCandidates (candidates : List Path)
  | clearCache
  | loadSettings (named : Option String)

/-- The surroundings of a program and what it keeps of the settings files. -/
structure Session where
  around : Surroundings
  cache : Cache := []

namespace Session

def step (s : Session) : SessionStep → Session
  | .write path bytes changed =>
    { s with around.files := s.around.files.write path bytes changed }
  | .makeDirectory path => { s with around.files := s.around.files.makeDirectory path }
  | .remove path => { s with around.files := s.around.files.remove path }
  | .setEnvironment environment => { s with around.environment := environment }
  | .setCandidates candidates => { s with around.candidates := candidates }
  | .clearCache => { s with cache := [] }
  | .loadSettings named => { s with cache := (Settings.load s.around s.cache named).cache }

def run (s : Session) (steps : List SessionStep) : Session :=
  steps.foldl step s

/-- The file at a path is given a content with a time of change: at the start or by a step. -/
def Given (around : Surroundings) (steps : List SessionStep) (path : Path) (bytes : List UInt8)
    (changed : Int) : Prop :=
  around.files.file? path = some (bytes, changed) ∨ .write path bytes changed ∈ steps

/-- No file is given two contents with one time of change. -/
def OneContent (around : Surroundings) (steps : List SessionStep) : Prop :=
  ∀ path bytes bytes' changed, Given around steps path bytes changed →
    Given around steps path bytes' changed → bytes = bytes'

/-- The files that are there are among those that were given.  Each cached object is what the check
makes of one of them, and none is of a file that cannot be read. -/
structure Traced (given : Path → List UInt8 → Int → Prop) (s : Session) : Prop where
  file : ∀ {path bytes changed}, s.around.files.file? path = some (bytes, changed) →
    given path bytes changed
  cached : ∀ {path changed members},
    s.cache.lookup ⟨path, changed, Settings.check.name⟩ = some members →
    ∃ real bytes raw, s.around.links.real? path = some real ∧ given real bytes changed ∧
      readObject s.around.limits path bytes = .ok raw ∧
      (Settings.check.run raw).outcome = .ok members
  unread : ∀ {real failure changed path members},
    s.around.files.answers? real = some (.error failure, .ok changed) →
    s.around.links.real? path = some real →
    s.cache.lookup ⟨path, changed, Settings.check.name⟩ ≠ some members

end Session

/-- A load adds at most one object to the cache, which is what the check makes of a file that is
there. -/
theorem Settings.cache_load (around : Surroundings) (cache : Cache) (named : Option String) :
    (load around cache named).cache = cache ∨
      ∃ path real bytes changed raw accepted, around.links.real? path = some real ∧
        around.files.file? real = some (bytes, changed) ∧
        readObject around.limits path bytes = .ok raw ∧ (check.run raw).outcome = .ok accepted ∧
        (load around cache named).cache = (⟨path, changed, check.name⟩, accepted) :: cache := by
  have hcache : (load around cache named).cache =
      (loadConfig around cache "resolver_defaults" check named).cache := rfl
  rw [hcache]
  unfold loadConfig
  split
  · exact .inl rfl
  split
  · exact .inl rfl
  next directory _ path bytes dated hfind =>
  cases dated with
  | error failure => exact .inl rfl
  | ok changed =>
  unfold loadFound
  dsimp only
  split
  · exact .inl rfl
  split
  · exact .inl rfl
  next raw hraw =>
  split
  · exact .inl rfl
  next accepted haccepted =>
  obtain ⟨content, hcontent, hraw⟩ := bind_eq_ok_iff.mp hraw
  obtain ⟨-, real, hreal, hanswers⟩ := findConfig_eq_ok hfind
  cases bytes with
  | error failure => cases hcontent
  | ok bytes =>
    obtain rfl : bytes = content := Except.ok.inj hcontent
    exact .inr ⟨path, real, bytes, changed, raw, accepted, hreal,
      Files.file?_eq_some_iff.mpr hanswers, hraw, haccepted, rfl⟩

namespace Session

variable {given : Path → List UInt8 → Int → Prop} {s : Session}

/-- What a load adds to the cache comes from a file that is there. -/
theorem Traced.load (h : s.Traced given) (named : Option String) :
    (s.step (.loadSettings named)).Traced given := by
  rcases Settings.cache_load s.around s.cache named with
    hsame | ⟨path', real, bytes, changed', raw, accepted, hreal, hfile, hraw, haccepted, hmore⟩
  · have hstep : s.step (.loadSettings named) = s := by
      rw [Session.step, hsame]
    rwa [hstep]
  have hlookup {path changed} : (s.step (.loadSettings named)).cache.lookup
      ⟨path, changed, Settings.check.name⟩ = if path = path' ∧ changed = changed' then some accepted
        else s.cache.lookup ⟨path, changed, Settings.check.name⟩ := by
    rw [Session.step, hmore, List.lookup_cons]
    by_cases hkey : path = path' ∧ changed = changed'
    · rw [if_pos hkey, hkey.1, hkey.2, beq_self_eq_true]
    · rw [if_neg hkey, beq_false_of_ne fun heq => hkey (by simpa using heq)]
  refine ⟨h.file, fun {path changed members} hcached => ?_,
    fun {real' failure changed path members} hunread hreal' hcached => ?_⟩
  · rw [hlookup] at hcached
    split at hcached
    · next hkey =>
      -- the entry that the load has added
      obtain ⟨rfl, rfl⟩ := hkey
      cases hcached
      exact ⟨real, bytes, raw, hreal, h.file hfile, hraw, haccepted⟩
    · exact h.cached hcached
  · rw [hlookup] at hcached
    split at hcached
    · next hkey =>
      obtain ⟨rfl, rfl⟩ := hkey
      cases hreal.symm.trans hreal'
      cases (Files.file?_eq_some_iff.mp hfile).symm.trans hunread
    · exact h.unread hunread hreal' hcached

/-- Where files are as before, or are now those that are given, or are gone, and all else is as
before, the session is kept to what is given. -/
theorem Traced.of_files (h : s.Traced given) {files : Files}
    (hfiles : ∀ path answers, files.answers? path = some answers →
      s.around.files.answers? path = some answers ∨
        ∃ bytes changed, answers = (.ok bytes, .ok changed) ∧ given path bytes changed) :
    Traced given { s with around.files := files } := by
  refine ⟨fun {path bytes changed} hfile => ?_, h.cached,
    fun {real failure changed path members} hunread => ?_⟩
  · rcases hfiles path _ (Files.file?_eq_some_iff.mp hfile) with hbefore | ⟨_, _, hanswers, hgiven⟩
    · exact h.file (Files.file?_eq_some_iff.mpr hbefore)
    · cases hanswers
      exact hgiven
  · rcases hfiles real _ hunread with hbefore | ⟨_, _, hanswers, -⟩
    · exact h.unread hbefore
    · cases hanswers

/-- A step that writes what is given keeps the session to that: a file that is there after the step
was there before, or is the one that is written. -/
theorem Traced.step (h : s.Traced given) (step : SessionStep)
    (hstep : ∀ path bytes changed, step = .write path bytes changed → given path bytes changed) :
    (s.step step).Traced given := by
  cases step with
  | write p bytes changed =>
    refine h.of_files fun path answers hanswers => ?_
    rw [Files.answers?_write] at hanswers
    split at hanswers
    · next hpath =>
      cases hanswers
      rw [hpath.2]
      exact .inr ⟨bytes, changed, rfl, hstep p bytes changed rfl⟩
    · exact .inl hanswers
  | makeDirectory p =>
    refine h.of_files fun path answers hanswers => ?_
    rw [Files.answers?_makeDirectory] at hanswers
    exact .inl hanswers
  | remove p =>
    refine h.of_files fun path answers hanswers => ?_
    rw [Files.answers?_remove] at hanswers
    split at hanswers
    · cases hanswers
    · exact .inl hanswers
  | setEnvironment environment => exact ⟨h.file, h.cached, h.unread⟩
  | setCandidates candidates => exact ⟨h.file, h.cached, h.unread⟩
  | clearCache => exact ⟨h.file, nofun, fun _ _ => nofun⟩
  | loadSettings named => exact h.load named

theorem Traced.run (steps : List SessionStep)
    (hsteps : ∀ path bytes changed, .write path bytes changed ∈ steps → given path bytes changed)
    (h : s.Traced given) : (s.run steps).Traced given := by
  induction steps generalizing s with
  | nil => exact h
  | cons step steps ih =>
    refine ih (fun path bytes changed hmem => ?_) (h.step step fun path bytes changed hstep => ?_)
    · exact hsteps path bytes changed (List.mem_cons_of_mem _ hmem)
    · exact hsteps path bytes changed (hstep ▸ List.mem_cons_self)

/-- A session that starts with an empty cache is kept to what its files are given. -/
theorem traced_run (around : Surroundings) (steps : List SessionStep) :
    (Session.run ⟨around, []⟩ steps).Traced (Given around steps) :=
  Traced.run steps (fun _ _ _ => .inr)
    ⟨.inl, nofun, fun _ _ => nofun⟩

end Session

/-! ## What a load gives -/

/-- Each cached object of a file that is there is what the check makes of the file. -/
def Cache.Fresh (cache : Cache) (around : Surroundings) (check : Check) : Prop :=
  ∀ path real bytes changed members, around.links.real? path = some real →
    around.files.answers? real = some (bytes, .ok changed) →
    cache.lookup ⟨path, changed, check.name⟩ = some members →
    ∃ content raw, bytes = .ok content ∧ readObject around.limits path content = .ok raw ∧
      (check.run raw).outcome = .ok members

/-- Where no file is given two contents with one time of change, the cache stays fresh. -/
theorem Session.fresh_run {around : Surroundings} {steps : List SessionStep}
    (hone : OneContent around steps) :
    let s := Session.run ⟨around, []⟩ steps
    s.cache.Fresh s.around Settings.check := by
  intro s path real bytes changed members hreal hanswers hlookup
  have htraced := traced_run around steps
  cases bytes with
  | error failure => exact absurd hlookup (htraced.unread hanswers hreal)
  | ok content =>
    obtain ⟨real', content', raw, hreal', hgiven, hraw, hmembers⟩ := htraced.cached hlookup
    cases hreal.symm.trans hreal'
    have hfile := htraced.file (Files.file?_eq_some_iff.mpr hanswers)
    cases hone real content content' changed hfile hgiven
    exact ⟨content, raw, rfl, hraw, hmembers⟩

theorem outcome_loadFound {limits : Json.Limits} {cache : Cache} {check : Check} {path : Path}
    {bytes : Except ReadFailure (List UInt8)} {changed : Int}
    (hcache : ∀ members, cache.lookup ⟨path, changed, check.name⟩ = some members →
      ∃ content raw, bytes = .ok content ∧ readObject limits path content = .ok raw ∧
        (check.run raw).outcome = .ok members) :
    (loadFound limits cache check path bytes changed).outcome = (do
      let content ← bytes.mapError (ConfigError.notRead path)
      let raw ← readObject limits path content
      (check.run raw).outcome.mapError (CheckError.inFile path.name)) := by
  unfold loadFound
  dsimp only
  cases hlookup : cache.lookup ⟨path, changed, check.name⟩ with
  | some members =>
    obtain ⟨content, raw, rfl, hraw, hmembers⟩ := hcache members hlookup
    change _ = (readObject limits path content >>= _)
    rw [hraw]
    change _ = (check.run raw).outcome.mapError _
    rw [hmembers]
    rfl
  | none =>
    rw [← bind_assoc]
    cases hraw : bytes.mapError (ConfigError.notRead path) >>= readObject limits path with
    | error e => rfl
    | ok raw =>
      change _ = (check.run raw).outcome.mapError _
      dsimp only
      cases (check.run raw).outcome <;> rfl

/-- With a fresh cache, loading is to find the file, read it and check it. -/
theorem outcome_loadConfig {around : Surroundings} {cache : Cache} {check : Check} (name : String)
    (named : Option String) (hcache : cache.Fresh around check) :
    (loadConfig around cache name check named).outcome = (do
      let directory ← dataDirectory around named
      let (path, bytes, changed) ← findConfig around directory name
      let _ ← changed.mapError (ConfigError.notDated path)
      let content ← bytes.mapError (ConfigError.notRead path)
      let raw ← readObject around.limits path content
      (check.run raw).outcome.mapError (CheckError.inFile path.name)) := by
  unfold loadConfig
  cases dataDirectory around named with
  | error e => rfl
  | ok directory =>
    change _ = (findConfig around directory name >>= _)
    dsimp only
    cases hfind : findConfig around directory name with
    | error e => rfl
    | ok found =>
      obtain ⟨path, bytes, changed⟩ := found
      cases changed with
      | error failure => rfl
      | ok changed =>
        obtain ⟨-, real, hreal, hanswers⟩ := findConfig_eq_ok hfind
        exact outcome_loadFound fun members => hcache path real bytes changed members hreal hanswers

namespace Settings

/-- The check gives the settings as an object. -/
theorem mapError_check (file : String) (raw : Members) :
    (check.run raw).outcome.mapError (CheckError.inFile file) =
      ((ofMembers raw).mapError ConfigError.wrongType >>= fun stored => pure stored.toMembers) := by
  unfold check
  dsimp only
  cases ofMembers raw <;> rfl

theorem outcome_load_eq_bind (around : Surroundings) (cache : Cache) (named : Option String) :
    (load around cache named).outcome =
      ((loadConfig around cache "resolver_defaults" check named).outcome >>= fun members =>
        (ofMembers (overridden around members)).mapError ConfigError.wrongType) := by
  unfold load
  dsimp only
  refine congrArg _ (funext fun members => ?_)
  cases ofMembers (overridden around members) <;> rfl

/-- With a fresh cache a load gives what a read gives. -/
theorem outcome_load {around : Surroundings} {cache : Cache} (named : Option String)
    (hcache : cache.Fresh around check) :
    (load around cache named).outcome = read around named := by
  rw [outcome_load_eq_bind, outcome_loadConfig _ named hcache]
  simp only [mapError_check, read, readStored, bind_assoc, pure_bind]

/-- Where the environment overrides nothing, the settings are those of the file. -/
theorem read_eq_readStored {around : Surroundings} (named : Option String)
    (hpolicy : around.environment.setting? "COLOR_MOD_UNRESOLVED" = none)
    (hformat : around.environment.setting? "COLOR_MOD_STRINGIFIER" = none) :
    read around named = readStored around named := by
  have hoverridden : ∀ members, overridden around members = members := by
    intro members
    simp only [overridden, override?, hpolicy, hformat, Option.map_none]
  have hstored : ∀ stored, readStored around named = .ok stored →
      ofMembers stored.toMembers = .ok stored := by
    intro stored h
    obtain ⟨directory, -, h⟩ := bind_eq_ok_iff.mp h
    obtain ⟨found, -, h⟩ := bind_eq_ok_iff.mp h
    obtain ⟨changed, -, h⟩ := bind_eq_ok_iff.mp h
    obtain ⟨bytes, -, h⟩ := bind_eq_ok_iff.mp h
    obtain ⟨raw, -, h⟩ := bind_eq_ok_iff.mp h
    cases hraw : ofMembers raw with
    | error message => rw [hraw] at h; cases h
    | ok settings =>
      rw [hraw] at h
      cases h
      exact ofMembers_toMembers hraw
  rw [read]
  cases h : readStored around named with
  | error e => rfl
  | ok stored =>
    change (ofMembers (overridden around stored.toMembers)).mapError _ = _
    rw [hoverridden, hstored stored h]
    rfl

/-- As long as no file is given two contents with one time of change, a load at any point of a session
gives the settings or the error that it gives with an empty cache, and those that the files and the
environment give at that point.  So an override that is gone has no effect, and settings are those of
a file that is there. -/
theorem load_eq_read (around : Surroundings) (steps : List SessionStep)
    (hone : Session.OneContent around steps) (named : Option String) :
    let s := Session.run ⟨around, []⟩ steps
    (load s.around s.cache named).outcome = (load s.around [] named).outcome ∧
    (load s.around s.cache named).outcome = read s.around named ∧
    (s.around.environment.setting? "COLOR_MOD_UNRESOLVED" = none →
      s.around.environment.setting? "COLOR_MOD_STRINGIFIER" = none →
      (load s.around s.cache named).outcome = readStored s.around named) ∧
    (∀ e, readStored s.around named = .error e →
      (load s.around s.cache named).outcome = .error e) ∧
    ∀ settings, (load s.around s.cache named).outcome = .ok settings →
      ∃ directory path real bytes changed, dataDirectory s.around named = .ok directory ∧
        pathFrom s.around.links directory "resolver_defaults.json" = .ok path ∧
        s.around.links.real? path = some real ∧
        s.around.files.file? real = some (bytes, changed) ∧
        (readObject s.around.limits path bytes).isOk := by
  intro s
  have hread : (load s.around s.cache named).outcome = read s.around named :=
    outcome_load named (Session.fresh_run hone)
  have hempty : (load s.around [] named).outcome = read s.around named :=
    outcome_load named fun _ _ _ _ _ _ _ h => by cases h
  refine ⟨hread.trans hempty.symm, hread, fun hpolicy hformat => ?_, fun e he => ?_,
    fun settings h => ?_⟩
  · rw [hread, read_eq_readStored named hpolicy hformat]
  · rw [hread, read, he]
    rfl
  · rw [hread] at h
    obtain ⟨stored, h, -⟩ := bind_eq_ok_iff.mp h
    obtain ⟨directory, hdirectory, h⟩ := bind_eq_ok_iff.mp h
    obtain ⟨⟨path, bytes, dated⟩, hfind, h⟩ := bind_eq_ok_iff.mp h
    obtain ⟨changed, hchanged, h⟩ := bind_eq_ok_iff.mp h
    obtain ⟨content, hcontent, h⟩ := bind_eq_ok_iff.mp h
    obtain ⟨raw, hraw, -⟩ := bind_eq_ok_iff.mp h
    obtain ⟨hpath, real, hreal, hanswers⟩ := findConfig_eq_ok hfind
    rw [eq_ok_of_mapError hchanged, eq_ok_of_mapError hcontent] at hanswers
    refine ⟨directory, path, real, content, changed, hdirectory, hpath, hreal,
      Files.file?_eq_some_iff.mpr hanswers, ?_⟩
    rw [hraw]
    rfl

/-- A file that is loaded, loaded again with an override, removed, and written anew. -/
def overriddenAndRemoved : List SessionStep :=
  let path : Path := ⟨["data", "resolver_defaults.json"]⟩
  [.setCandidates [⟨["data"]⟩],
   .write path "\x7b\"unresolved\": \"ignore\"\x7d".toUTF8.toList 1,
   .loadSettings none,
   .setEnvironment ⟨[("COLOR_MOD_UNRESOLVED", "warn")]⟩,
   .loadSettings none,
   .setEnvironment {},
   .remove path,
   .loadSettings none,
   .write path "\x7b\x7d".toUTF8.toList 2]

/-- The object of the first file is still in the cache, and a load gives the settings of the second
file, which are the defaults. -/
theorem load_eq_read_overriddenAndRemoved :
    let s := Session.run ⟨{}, []⟩ overriddenAndRemoved
    Session.OneContent {} overriddenAndRemoved ∧ s.cache.length = 1 ∧
    (load s.around s.cache none).outcome = readStored s.around none ∧
    (load s.around s.cache none).outcome.toOption.map Settings.policy = some "throw" := by
  intro s
  have hone : Session.OneContent {} overriddenAndRemoved := by
    intro path bytes bytes' changed hgiven hgiven'
    have hempty : ∀ path, ({} : Files).file? path = none := by
      intro path
      have hanswers : ({} : Files).answers? path = none := by
        by_cases hroot : path.parts = []
        · exact Files.answers?_of_root _ _ hroot
        · rw [Files.answers?, Files.entry?_eq_lookup _ _ hroot]
          rfl
      rw [Files.file?, hanswers]
    simp only [Session.Given, overriddenAndRemoved, hempty, reduceCtorEq, List.mem_cons,
      SessionStep.write.injEq, List.not_mem_nil, false_or, or_false] at hgiven hgiven'
    rcases hgiven with ⟨-, rfl, rfl⟩ | ⟨-, rfl, rfl⟩
    · rcases hgiven' with ⟨-, rfl, -⟩ | ⟨-, -, h⟩
      · rfl
      · cases h
    · rcases hgiven' with ⟨-, -, h⟩ | ⟨-, rfl, -⟩
      · cases h
      · rfl
  obtain ⟨-, -, hstored, -⟩ := load_eq_read {} overriddenAndRemoved hone none
  exact ⟨hone, by decide +kernel, hstored (by decide +kernel) (by decide +kernel), by decide +kernel⟩

end Settings

end ColorMod
