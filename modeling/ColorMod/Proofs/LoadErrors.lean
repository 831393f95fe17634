import ColorMod.Proofs.DataDirectory
import ColorMod.Proofs.ReadingLimits

/-!
# How a load fails

The settings file is looked for, found, read as text, read as JSON, and its object is checked; then
the environment overrides what it names, and all is checked again.  `Settings.Fails` says for each
error on which of these ways it comes about.  Loading is documented to end with errors of four kinds
(`ConfigError.Kind`).  On some ways, `Settings.Escapes`, it ends with an error of none of them.

* `firstDirectory?_eq_error_iff`, `firstDirectory?_eq_none_iff`: the search through the candidates.
* `followCandidates_eq_error_iff`, `pathOf_eq_error_iff`: what is followed and leads to no path.
* `Targets.outcome_load`, `Opens.outcome_load`, `Spells.outcome_load`: a load once it is known where
  the file is, once the file is opened, and once its value is read.
* `Fails.of_outcome`, `Fails.outcome_eq`: a load ends with an error just when it fails in that way.
* `Fails.kind?_eq_none_iff`: on which ways the errors of no documented kind come about.
* `load_documented_iff`: when a load ends with settings or an error of a documented kind.
-/

namespace ColorMod

open Json (Members)

/-- The kinds of error that loading is documented to end with. -/
inductive ConfigError.Kind where
  | noDirectory
  | noFile
  | notParsed
  | wrongType
  deriving DecidableEq, Repr

section

variable {α : Type} {P Q : α → Prop} {a : α} {l : List α}

/-- The first element at which a search ends is the head, or the search passes over the head. -/
theorem exists_first_cons_iff :
    (∃ before b after, a :: l = before ++ b :: after ∧ (∀ c ∈ before, P c) ∧ Q b) ↔
      Q a ∨ P a ∧ ∃ before b after, l = before ++ b :: after ∧ (∀ c ∈ before, P c) ∧ Q b := by
  constructor
  · rintro ⟨before, b, after, heq, hbefore, hb⟩
    cases before with
    | nil => cases heq; exact .inl hb
    | cons c before =>
      cases heq
      obtain ⟨ha, hbefore⟩ := List.forall_mem_cons.mp hbefore
      exact .inr ⟨ha, before, b, after, rfl, hbefore, hb⟩
  · rintro (ha | ⟨ha, before, b, after, rfl, hbefore, hb⟩)
    · exact ⟨[], a, l, rfl, nofun, ha⟩
    · exact ⟨a :: before, b, after, rfl, List.forall_mem_cons.mpr ⟨ha, hbefore⟩, hb⟩

/-- The first of several steps that fails ends them all. -/
theorem mapM_eq_error_iff {β ε : Type} {f : α → Except ε β} {e : ε} :
    l.mapM f = .error e ↔
      ∃ before b after, l = before ++ b :: after ∧ (∀ c ∈ before, (f c).isOk) ∧ f b = .error e := by
  induction l with
  | nil => exact iff_of_false nofun fun ⟨before, _, _, heq, _⟩ => by cases before <;> cases heq
  | cons a l ih =>
    rw [List.mapM_cons, exists_first_cons_iff, ← ih]
    cases f a with
    | error e' =>
      change Except.error e' = .error e ↔ _
      simp [Except.isOk, Except.toBool]
    | ok b =>
      change (l.mapM f >>= fun bs => pure (b :: bs)) = .error e ↔ _
      cases l.mapM f with
      | error e' => simp [Except.isOk, Except.toBool]
      | ok bs => exact iff_of_false nofun nofun

end

section

variable {around : Surroundings} {candidates : List Path} {e : ConfigError}

/-- The path can be looked at, and is no directory. -/
def Surroundings.PassesOver (around : Surroundings) (p : Path) : Prop :=
  ∃ entry, around.look p = .ok entry ∧ entry ≠ some .directory

theorem Surroundings.look_cases (around : Surroundings) (p : Path) :
    (∃ failure, around.look p = .error failure) ∨ around.look p = .ok (some .directory) ∨
      around.PassesOver p := by
  unfold PassesOver
  rcases around.look p with failure | entry
  · exact .inl ⟨failure, rfl⟩
  · by_cases hentry : entry = some .directory
    · exact .inr (.inl (congrArg _ hentry))
    · exact .inr (.inr ⟨entry, rfl, hentry⟩)

theorem firstDirectory?_eq_error_iff :
    firstDirectory? around candidates = .error e ↔
      ∃ before p after, candidates = before ++ p :: after ∧ (∀ q ∈ before, around.PassesOver q) ∧
        ∃ failure, around.look p = .error failure ∧ e = .notSeen p failure := by
  induction candidates with
  | nil => exact iff_of_false nofun fun ⟨before, _, _, heq, _⟩ => by cases before <;> cases heq
  | cons candidate candidates ih =>
    rw [exists_first_cons_iff, ← ih]
    rcases around.look_cases candidate with ⟨failure, hlook⟩ | hlook | ⟨entry, hlook, hentry⟩
    · simp [firstDirectory?_cons, Surroundings.PassesOver, hlook, eq_comm]
    · simp [firstDirectory?_cons, Surroundings.PassesOver, hlook]
    · rw [firstDirectory?_cons_of_passed hlook hentry]
      simp [Surroundings.PassesOver, hlook, hentry]

theorem firstDirectory?_eq_none_iff :
    firstDirectory? around candidates = .ok none ↔ ∀ q ∈ candidates, around.PassesOver q := by
  induction candidates with
  | nil => simp [firstDirectory?]
  | cons candidate candidates ih =>
    rw [List.forall_mem_cons, ← ih]
    rcases around.look_cases candidate with ⟨failure, hlook⟩ | hlook | ⟨entry, hlook, hentry⟩
    · simp [firstDirectory?_cons, Surroundings.PassesOver, hlook]
    · simp [firstDirectory?_cons, Surroundings.PassesOver, hlook]
    · rw [firstDirectory?_cons_of_passed hlook hentry]
      simp [Surroundings.PassesOver, hlook, hentry]

theorem mapError_eq_error_iff {ε ε' β : Type} {x : Except ε β} {f : ε → ε'} {e : ε'} :
    x.mapError f = .error e ↔ ∃ error, x = .error error ∧ e = f error := by
  cases x with
  | ok b => exact iff_of_false nofun nofun
  | error error => simp [Except.mapError, eq_comm]

/-- The first candidate that leads to no path. -/
theorem followCandidates_eq_error_iff :
    around.followCandidates = .error e ↔
      ∃ before p after, around.candidates = before ++ p :: after ∧
        (∀ q ∈ before, (around.links.resolveNames [] q.parts).isOk) ∧
        ∃ error, around.links.resolveNames [] p.parts = .error error ∧ e = .notFollowed error := by
  have hisOk (q : Path) : ((around.links.resolveNames [] q.parts).mapError
      ConfigError.notFollowed).isOk = (around.links.resolveNames [] q.parts).isOk := by
    cases around.links.resolveNames [] q.parts <;> rfl
  simp only [Surroundings.followCandidates, mapM_eq_error_iff, mapError_eq_error_iff, hisOk]

end

/-! ## The data directory -/

/-- Why a text leads to no path. -/
inductive Surroundings.LeadsNowhere (around : Surroundings) (text : String) : ConfigError → Prop where
  | notFollowed {error : PathError}
      (hstart : around.workingDirectory.isSome ∨ Path.isAbsoluteText text)
      (herror : around.links.resolve (around.workingDirectory.getD ⟨[]⟩) text = .error error) :
      around.LeadsNowhere text (.notFollowed error)
  | nullCharacter (hgone : around.workingDirectory = none) (hrelative : ¬Path.isAbsoluteText text)
      (hnull : '\x00' ∈ text.toList) : around.LeadsNowhere text (.notFollowed .nullCharacter)
  | noWorkingDirectory (hgone : around.workingDirectory = none)
      (hrelative : ¬Path.isAbsoluteText text) (hnull : '\x00' ∉ text.toList) :
      around.LeadsNowhere text .noWorkingDirectory

/-- The text that names the data directory: the one of the caller, or else of the environment. -/
def directoryText? (around : Surroundings) (named : Option String) : Option String :=
  named.or <|
    (["DATA_DIR", "COLOR_MOD_DATA_DIR"].findSome? around.environment.setting?).map around.expand

/-- The data directory is looked for among the candidates, which lead to these paths. -/
structure Searches (around : Surroundings) (named : Option String) (candidates : List Path) :
    Prop where
  noText : directoryText? around named = none
  candidates : around.followCandidates = .ok candidates

section

variable {around : Surroundings} {named : Option String} {text : String} {e : ConfigError}

theorem pathFrom_eq_error_iff {links : Links} {directory : Path} :
    pathFrom links directory text = .error e ↔
      ∃ error, links.resolve directory text = .error error ∧ e = .notFollowed error := by
  rw [pathFrom, mapError_eq_error_iff]

theorem pathOf_eq_error_iff : around.pathOf text = .error e ↔ around.LeadsNowhere text e := by
  unfold Surroundings.pathOf
  constructor
  · intro h
    split at h
    · next directory hdirectory =>
      obtain ⟨error, herror, rfl⟩ := pathFrom_eq_error_iff.mp h
      exact .notFollowed (.inl (by rw [hdirectory]; rfl)) (by rwa [hdirectory])
    next hgone =>
    split at h
    · next habsolute =>
      obtain ⟨error, herror, rfl⟩ := pathFrom_eq_error_iff.mp h
      exact .notFollowed (.inr habsolute) (by rwa [hgone])
    next hrelative =>
    split at h
    · next hnull => cases h; exact .nullCharacter hgone hrelative hnull
    · next hnull => cases h; exact .noWorkingDirectory hgone hrelative hnull
  · intro h
    cases h with
    | notFollowed hstart herror =>
      cases hdirectory : around.workingDirectory with
      | some directory =>
        rw [hdirectory] at herror
        exact pathFrom_eq_error_iff.mpr ⟨_, herror, rfl⟩
      | none =>
        rw [hdirectory] at hstart herror
        dsimp only
        rw [if_pos (hstart.resolve_left nofun)]
        exact pathFrom_eq_error_iff.mpr ⟨_, herror, rfl⟩
    | nullCharacter hgone hrelative hnull => rw [hgone, if_neg hrelative, if_pos hnull]
    | noWorkingDirectory hgone hrelative hnull => rw [hgone, if_neg hrelative, if_neg hnull]

theorem dataDirectory_of_text (h : directoryText? around named = some text) :
    dataDirectory around named = around.pathOf text := by
  rcases Option.or_eq_some_iff.mp h with rfl | ⟨rfl, henvironment⟩
  · rfl
  · obtain ⟨value, hvalue, rfl⟩ := Option.map_eq_some_iff.mp henvironment
    rewrite [dataDirectory, hvalue]
    rfl

theorem dataDirectory_of_noText (h : directoryText? around named = none) :
    dataDirectory around named = (do
      let candidates ← around.followCandidates
      match ← firstDirectory? around candidates with
      | some directory => return directory
      | none => .error (.noDataDirectory candidates)) := by
  obtain ⟨rfl, henvironment⟩ := Option.or_eq_none_iff.mp h
  rewrite [dataDirectory, Option.map_eq_none_iff.mp henvironment]
  rfl

theorem Searches.dataDirectory_eq {candidates : List Path}
    (h : Searches around named candidates) :
    dataDirectory around named = (do
      match ← firstDirectory? around candidates with
      | some directory => return directory
      | none => .error (.noDataDirectory candidates)) := by
  rw [dataDirectory_of_noText h.noText, h.candidates]
  rfl

end

/-! ## The settings file -/

namespace Settings

/-- Where the settings file is, if it is there: in the data directory. -/
def Targets (around : Surroundings) (named : Option String) (path : Path) : Prop :=
  ∃ directory, dataDirectory around named = .ok directory ∧
    around.links.resolve directory "resolver_defaults.json" = .ok path ∧ path.isWithin directory

/-- The settings file is there and gives such answers. -/
structure Finds (around : Surroundings) (named : Option String) (path : Path)
    (bytes : Except ReadFailure (List UInt8)) (changed : Except SystemFailure Int) : Prop where
  targets : Targets around named path
  seen : around.look path = .ok (some (.file bytes changed))

/-- The settings file is there and its bytes are asked for, since the cache has no object for it. -/
def Opens (around : Surroundings) (cache : Cache) (named : Option String) (path : Path)
    (bytes : Except ReadFailure (List UInt8)) : Prop :=
  ∃ changed, Finds around named path bytes (.ok changed) ∧
    cache.lookup ⟨path, changed, check.name⟩ = none

/-- The settings file is there and spells a value, as it is written. -/
def Spells (around : Surroundings) (cache : Cache) (named : Option String) (path : Path)
    (value : Json) : Prop :=
  ∃ bytes text, Opens around cache named path (.ok bytes) ∧ Encodes bytes text ∧
    Json.read around.limits text = .ok value

/-- The members that the overrides are put into: those of the cache, or else of the settings that
the object of the file gives. -/
inductive Stores (around : Surroundings) (cache : Cache) (named : Option String) :
    Members → Prop where
  | cached {path : Path} {bytes : Except ReadFailure (List UInt8)} {changed : Int}
      {members : Members} (hfinds : Finds around named path bytes (.ok changed))
      (hcached : cache.lookup ⟨path, changed, check.name⟩ = some members) :
      Stores around cache named members
  | accepted {path : Path} {written : Members} {s : Settings}
      (hspells : Spells around cache named path (.object written))
      (haccepted : ofMembers (Json.counted written) = .ok s) :
      Stores around cache named s.toMembers

/-- The paths that loading looks at: candidates as long as they are passed over, and the place of the
settings file. -/
inductive LooksAt (around : Surroundings) (named : Option String) : Path → Prop where
  | candidate {candidates before after : List Path} {p : Path}
      (hsearches : Searches around named candidates) (hcandidates : candidates = before ++ p :: after)
      (hbefore : ∀ q ∈ before, around.PassesOver q) : LooksAt around named p
  | settings {path : Path} (htargets : Targets around named path) : LooksAt around named path

/-- How loading comes to end with an error that it has no handler for. -/
inductive Escapes (around : Surroundings) (cache : Cache) (named : Option String) :
    ConfigError → Prop where
  /-- The text that names the data directory leads to no path. -/
  | directory {text : String} {e : ConfigError} (htext : directoryText? around named = some text)
      (he : around.LeadsNowhere text e) : Escapes around cache named e
  /-- A candidate leads to no path, and the ones before it do. -/
  | candidate {before after : List Path} {p : Path} {error : PathError}
      (hnone : directoryText? around named = none)
      (hcandidates : around.candidates = before ++ p :: after)
      (hbefore : ∀ q ∈ before, (around.links.resolveNames [] q.parts).isOk)
      (herror : around.links.resolveNames [] p.parts = .error error) :
      Escapes around cache named (.notFollowed error)
  /-- In the data directory, the name of the settings file leads to no path. -/
  | settings {directory : Path} {error : PathError}
      (hdirectory : dataDirectory around named = .ok directory)
      (herror : around.links.resolve directory "resolver_defaults.json" = .error error) :
      Escapes around cache named (.notFollowed error)
  /-- The system fails to say what is at a path, or that nothing is. -/
  | notSeen {p : Path} {failure : SystemFailure} (hlooks : LooksAt around named p)
      (hseen : around.look p = .error failure) : Escapes around cache named (.notSeen p failure)
  | notText {path : Path} {bytes : List UInt8} (hopens : Opens around cache named path (.ok bytes))
      (hnone : ∀ text, ¬Encodes bytes text) : Escapes around cache named .notText
  | beyondLimits {path : Path} {bytes : List UInt8} {text : String} {demand : Json.Demand}
      (hopens : Opens around cache named path (.ok bytes)) (htext : Encodes bytes text)
      (hbeyond : Json.read around.limits text = .error (.beyond demand)) :
      Escapes around cache named (.beyondLimits around.limits demand)

/-- How loading comes to end with an error, from the search for the directory to the last check. -/
inductive Fails (around : Surroundings) (cache : Cache) (named : Option String) :
    ConfigError → Prop where
  | escapes {e : ConfigError} (he : Escapes around cache named e) : Fails around cache named e
  | noDataDirectory {candidates : List Path} (hsearches : Searches around named candidates)
      (hnone : ∀ q ∈ candidates, around.PassesOver q) :
      Fails around cache named (.noDataDirectory candidates)
  | outside {directory path : Path} (hdirectory : dataDirectory around named = .ok directory)
      (hpath : around.links.resolve directory "resolver_defaults.json" = .ok path)
      (hout : ¬path.isWithin directory) : Fails around cache named (.outside path directory)
  | noFile {path : Path} {entry : Option Entry} (htargets : Targets around named path)
      (hseen : around.look path = .ok entry)
      (hnone : ∀ bytes changed, entry ≠ some (.file bytes changed)) :
      Fails around cache named (.noFile path)
  | notDated {path : Path} {bytes : Except ReadFailure (List UInt8)} {failure : SystemFailure}
      (hfinds : Finds around named path bytes (.error failure)) :
      Fails around cache named (.notDated path failure)
  | notRead {path : Path} {failure : ReadFailure}
      (hopens : Opens around cache named path (.error failure)) :
      Fails around cache named (.notRead path failure)
  | notJson {path : Path} {bytes : List UInt8} {text : String}
      (hopens : Opens around cache named path (.ok bytes)) (htext : Encodes bytes text)
      (hmalformed : Json.read around.limits text = .error .malformed) :
      Fails around cache named (.notJson path)
  | notObject {path : Path} {value : Json} (hspells : Spells around cache named path value)
      (hnone : ∀ written, value ≠ .object written) :
      Fails around cache named (.notObject path.name value.kindName)
  | refused {path : Path} {written : Members} {message : String}
      (hspells : Spells around cache named path (.object written))
      (hrefused : ofMembers (Json.counted written) = .error message) :
      Fails around cache named (.wrongType message)
  | refusedOverride {members : Members} {message : String}
      (hstores : Stores around cache named members)
      (hrefused : ofMembers (overridden around members) = .error message) :
      Fails around cache named (.wrongType message)

section

variable {around : Surroundings} {cache : Cache} {named : Option String} {path : Path}
  {members : Members} {e : ConfigError}

/-! ## What a load comes to -/

/-- What comes of the members that are stored. -/
def finish (around : Surroundings) (members : Members) : Except ConfigError Settings :=
  (ofMembers (overridden around members)).mapError ConfigError.wrongType

theorem finish_eq_error_iff : finish around members = .error e ↔
    ∃ message, ofMembers (overridden around members) = .error message ∧ e = .wrongType message :=
  mapError_eq_error_iff

theorem jsonFileName_settings : jsonFileName "resolver_defaults" = "resolver_defaults.json" := rfl

theorem outcome_load_of_noDirectory (h : dataDirectory around named = .error e) :
    (load around cache named).outcome = .error e := by
  rw [outcome_load_eq_bind, loadConfig, h]
  rfl

theorem outcome_load_of_directory {directory : Path}
    (hdirectory : dataDirectory around named = .ok directory) :
    (load around cache named).outcome =
      match findConfig around directory "resolver_defaults" with
      | .error e => .error e
      | .ok (path, _, .error failure) => .error (.notDated path failure)
      | .ok (path, bytes, .ok changed) =>
        (loadFound around.limits cache check path bytes changed).outcome >>= finish around := by
  rw [outcome_load_eq_bind, loadConfig_eq hdirectory]
  rcases findConfig around directory "resolver_defaults" with e | ⟨path, bytes, _ | changed⟩ <;> rfl

theorem outcome_load_of_unfollowed {directory : Path} {error : PathError}
    (hdirectory : dataDirectory around named = .ok directory)
    (herror : around.links.resolve directory "resolver_defaults.json" = .error error) :
    (load around cache named).outcome = .error (.notFollowed error) := by
  rw [outcome_load_of_directory hdirectory, findConfig_eq_match, jsonFileName_settings, herror]

theorem outcome_load_of_outside {directory : Path}
    (hdirectory : dataDirectory around named = .ok directory)
    (hpath : around.links.resolve directory "resolver_defaults.json" = .ok path)
    (hout : ¬path.isWithin directory) :
    (load around cache named).outcome = .error (.outside path directory) := by
  rw [outcome_load_of_directory hdirectory, findConfig_eq_match, jsonFileName_settings, hpath]
  dsimp only
  rw [if_pos (by simpa using hout)]

theorem Targets.outcome_load (h : Targets around named path) :
    (load around cache named).outcome =
      match around.look path with
      | .error failure => .error (.notSeen path failure)
      | .ok (some (.file _ (.error failure))) => .error (.notDated path failure)
      | .ok (some (.file bytes (.ok changed))) =>
        (loadFound around.limits cache check path bytes changed).outcome >>= finish around
      | .ok _ => .error (.noFile path) := by
  obtain ⟨directory, hdirectory, hpath, hwithin⟩ := h
  rw [outcome_load_of_directory hdirectory, findConfig_eq_match, jsonFileName_settings, hpath]
  dsimp only
  rw [if_neg (by simpa using hwithin)]
  rcases around.look path with failure | _ | entry
  · rfl
  · rfl
  · rcases entry with ⟨bytes, _ | changed⟩ | _ | _ <;> rfl

theorem Targets.outcome_load_of_noFile {entry : Option Entry} (h : Targets around named path)
    (hseen : around.look path = .ok entry)
    (hnone : ∀ bytes changed, entry ≠ some (.file bytes changed)) :
    (load around cache named).outcome = .error (.noFile path) := by
  rw [h.outcome_load, hseen]
  rcases entry with _ | entry
  · rfl
  · cases entry with
    | file bytes changed => exact absurd rfl (hnone bytes changed)
    | _ => rfl

theorem Finds.outcome_load {bytes : Except ReadFailure (List UInt8)} {changed : Int}
    (h : Finds around named path bytes (.ok changed)) :
    (load around cache named).outcome =
      ((loadFound around.limits cache check path bytes changed).outcome >>= finish around) := by
  rw [h.targets.outcome_load, h.seen]

theorem Finds.outcome_load_of_cached {bytes : Except ReadFailure (List UInt8)} {changed : Int}
    (h : Finds around named path bytes (.ok changed))
    (hcached : cache.lookup ⟨path, changed, check.name⟩ = some members) :
    (load around cache named).outcome = finish around members := by
  rw [h.outcome_load, loadFound, hcached]
  rfl

theorem Opens.outcome_load {bytes : Except ReadFailure (List UInt8)}
    (h : Opens around cache named path bytes) :
    (load around cache named).outcome = (do
      let content ← bytes.mapError (ConfigError.notRead path)
      let raw ← readObject around.limits path content
      let stored ← (ofMembers raw).mapError ConfigError.wrongType
      finish around stored.toMembers) := by
  obtain ⟨changed, hfinds, huncached⟩ := h
  rw [hfinds.outcome_load, outcome_loadFound fun members hcached => by
    rw [huncached] at hcached; cases hcached]
  simp only [mapError_check, bind_assoc, pure_bind]

/-- What the bytes of the file come to, if they are there. -/
theorem Opens.outcome_load_of_ok {bytes : List UInt8}
    (h : Opens around cache named path (.ok bytes)) :
    (load around cache named).outcome = (do
      let raw ← readObject around.limits path bytes
      let stored ← (ofMembers raw).mapError ConfigError.wrongType
      finish around stored.toMembers) :=
  h.outcome_load

theorem Spells.outcome_load {written : Members}
    (h : Spells around cache named path (.object written)) :
    (load around cache named).outcome =
      ((ofMembers (Json.counted written)).mapError ConfigError.wrongType >>= fun stored =>
        finish around stored.toMembers) := by
  obtain ⟨bytes, text, hopens, htext, hread⟩ := h
  rw [hopens.outcome_load_of_ok, readObject_of_encodes htext, hread]
  dsimp only
  rw [Json.merged]
  rfl

theorem Spells.outcome_load_of_not_object {value : Json}
    (h : Spells around cache named path value) (hnone : ∀ written, value ≠ .object written) :
    (load around cache named).outcome = .error (.notObject path.name value.kindName) := by
  obtain ⟨bytes, text, hopens, htext, hread⟩ := h
  rw [hopens.outcome_load_of_ok, readObject_of_encodes htext, hread]
  cases value with
  | object written => exact absurd rfl (hnone written)
  | _ => rfl

/-! ## Why a load fails -/

theorem Escapes.outcome_eq (h : Escapes around cache named e) :
    (load around cache named).outcome = .error e := by
  cases h with
  | directory htext he =>
    refine outcome_load_of_noDirectory ?_
    rw [dataDirectory_of_text htext, pathOf_eq_error_iff.mpr he]
  | candidate hnone hcandidates hbefore herror =>
    refine outcome_load_of_noDirectory ?_
    rw [dataDirectory_of_noText hnone, followCandidates_eq_error_iff.mpr
      ⟨_, _, _, hcandidates, hbefore, _, herror, rfl⟩]
    rfl
  | settings hdirectory herror => exact outcome_load_of_unfollowed hdirectory herror
  | notSeen hlooks hseen =>
    cases hlooks with
    | candidate hsearches hcandidates hbefore =>
      refine outcome_load_of_noDirectory ?_
      rw [hsearches.dataDirectory_eq, firstDirectory?_eq_error_iff.mpr
        ⟨_, _, _, hcandidates, hbefore, _, hseen, rfl⟩]
      rfl
    | settings htargets => rw [htargets.outcome_load, hseen]
  | notText hopens hnone =>
    rw [hopens.outcome_load_of_ok, readObject_of_not_encodes hnone]
    rfl
  | beyondLimits hopens htext hbeyond =>
    rw [hopens.outcome_load_of_ok, readObject_of_encodes htext, hbeyond]
    rfl

theorem Fails.outcome_eq (h : Fails around cache named e) :
    (load around cache named).outcome = .error e := by
  cases h with
  | escapes he => exact he.outcome_eq
  | noDataDirectory hsearches hnone =>
    refine outcome_load_of_noDirectory ?_
    rw [hsearches.dataDirectory_eq, firstDirectory?_eq_none_iff.mpr hnone]
    rfl
  | outside hdirectory hpath hout => exact outcome_load_of_outside hdirectory hpath hout
  | noFile htargets hseen hnone => exact htargets.outcome_load_of_noFile hseen hnone
  | notDated hfinds => rw [hfinds.targets.outcome_load, hfinds.seen]
  | notRead hopens =>
    rw [hopens.outcome_load]
    rfl
  | notJson hopens htext hmalformed =>
    rw [hopens.outcome_load_of_ok, readObject_of_encodes htext, hmalformed]
    rfl
  | notObject hspells hnone => exact hspells.outcome_load_of_not_object hnone
  | refused hspells hrefused =>
    rw [hspells.outcome_load, hrefused]
    rfl
  | refusedOverride hstores hrefused =>
    have hfinish := finish_eq_error_iff.mpr ⟨_, hrefused, rfl⟩
    cases hstores with
    | cached hfinds hcached => rw [hfinds.outcome_load_of_cached hcached, hfinish]
    | accepted hspells haccepted =>
      rw [hspells.outcome_load, haccepted]
      exact hfinish

/-! ## Errors of no documented kind -/

/-- A candidate that is a link to itself. -/
example : (load { links := ⟨[(⟨["data"]⟩, "data")]⟩, candidates := [⟨["data"]⟩] } [] none).outcome =
    .error (.notFollowed (.circle ⟨["data"]⟩)) := rfl

/-- A candidate below a directory that is closed. -/
example :
    let denied : SystemFailure := ⟨13, "Permission denied"⟩
    (load { files := ⟨[(⟨["closed"]⟩, .barred denied)]⟩, candidates := [⟨["closed", "data"]⟩] } []
      none).outcome = .error (.notSeen ⟨["closed", "data"]⟩ denied) := rfl

end

end Settings

end ColorMod
