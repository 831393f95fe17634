import ColorMod.Proofs.ReadingLimits
import ColorMod.Proofs.SettingsCache

/-!
# Which settings a load gives

The object of a settings file is checked, then the environment overrides what it names, and then all
is checked again.  What comes of it is said at once: each setting is the override, else the member of
the object, else the default (`sourceOf`), and there are settings as soon as each member and each
override is valid on its own.  Before that the object has to be read, and the limits of reading hold
for all that is written in it, settings or not.

* `Json.lookup_setMember`: the members after one is set.
* `valueOf_overridden`: an override goes before the member.
* `gives_sourceOf_toMembers`: the second check finds what the first one has found.
* `outcome_load_of_holds`, `outcome_load_eq_ok_iff`: a load, where the file spells an object.
* `exists_build`: such settings are enough for a context.
* `load_ok_iff_valid`: when a load gives settings, and which.
-/

namespace ColorMod

open Json (Members)

theorem CodeText.ofString_inj {s t : String} : ofString s = ofString t ↔ s = t := by
  rw [ofString, ofString, List.map_inj_right fun _ _ h => CodePoint.character.inj h,
    String.toList_inj]

theorem Json.lookup_setMember (members : Members) (key : CodeText) (value : Json) (k : CodeText) :
    (setMember members key value).lookup k = if k = key then some value else members.lookup k := by
  have hmap : (members.map fun m => if m.1 == key then (key, value) else m).lookup k =
      if k = key then if members.any fun m => m.1 == key then some value else none
      else members.lookup k := by
    induction members with
    | nil => simp
    | cons m members ih => grind
  unfold setMember
  split
  · next hany => rw [hmap, if_pos hany]
  · next hany =>
    have hnone : members.lookup key = none := by
      grind [List.lookup_eq_none_iff]
    rw [List.lookup_append]
    by_cases hk : k = key
    · simp [hk, hnone]
    · simp [List.lookup_cons, hk, beq_false_of_ne hk]

namespace Settings

/-! ## Overrides -/

/-- The override of a setting. -/
def overrideOf? (around : Surroundings) (key : String) : Option Json :=
  if key = "unresolved" then override? around "COLOR_MOD_UNRESOLVED"
  else if key = "stringifier" then override? around "COLOR_MOD_STRINGIFIER"
  else none

/-- What stands for a setting: its override, else the member of the object, else a default. -/
def sourceOf (around : Surroundings) (members : Members) (key : String) (otherwise : Json) : Json :=
  (overrideOf? around key).getD (valueOf members key otherwise)

/-- Each override, trimmed and in lower case, is a value that stands for a setting. -/
structure ValidOverrides (environment : Environment) : Prop where
  policy : ∀ text, environment.setting? "COLOR_MOD_UNRESOLVED" = some text →
    ∃ name, IsPolicy (.string (.ofString (Text.lower (Text.trim text)))) name
  format : ∀ text, environment.setting? "COLOR_MOD_STRINGIFIER" = some text →
    ∃ name, IsFormat (.string (.ofString (Text.lower (Text.trim text)))) name

theorem member?_setMember (members : Members) (name : String) (value : Json) (key : String) :
    member? (Json.setMember members (.ofString name) value) key =
      if key = name then some value else member? members key := by
  simp only [member?, Json.lookup_setMember, CodeText.ofString_inj]

/-- The object with a setting overridden, if it is. -/
def withOverride (members : Members) (name : String) (value : Option Json) : Members :=
  match value with
  | some value => Json.setMember members (.ofString name) value
  | none => members

theorem overridden_eq (around : Surroundings) (members : Members) :
    overridden around members =
      withOverride (withOverride members "unresolved" (override? around "COLOR_MOD_UNRESOLVED"))
        "stringifier" (override? around "COLOR_MOD_STRINGIFIER") := rfl

theorem member?_withOverride (members : Members) (name : String) (value : Option Json)
    (key : String) :
    member? (withOverride members name value) key =
      if key = name then value.or (member? members key) else member? members key := by
  cases value with
  | none => simp [withOverride]
  | some value => exact member?_setMember members name value key

theorem member?_overridden (around : Surroundings) (members : Members) (key : String) :
    member? (overridden around members) key =
      (overrideOf? around key).or (member? members key) := by
  rw [overridden_eq, member?_withOverride, member?_withOverride, overrideOf?]
  by_cases hpolicy : key = "unresolved"
  · subst hpolicy
    rfl
  · rw [if_neg hpolicy, if_neg hpolicy]
    split <;> simp

theorem valueOf_overridden (around : Surroundings) (members : Members) :
    valueOf (overridden around members) = sourceOf around members := by
  funext key otherwise
  rw [valueOf, sourceOf, valueOf, member?_overridden]
  cases overrideOf? around key <;> rfl

/-! ## The second check -/

/-- Values that stand for the same setting stand for the same settings only. -/
theorem getD_iff_getD {β : Type} {P : Json → β → Prop} {f : Json → Except String β}
    (hf : ∀ {value : Json} {b : β}, f value = .ok b ↔ P value b) {v w : Json} {b c : β}
    (hv : P v b) (hw : P w b) (value : Option Json) : P (value.getD v) c ↔ P (value.getD w) c := by
  cases value with
  | none => rw [Option.getD_none, Option.getD_none, ← hf, ← hf, hf.mpr hv, hf.mpr hw]
  | some value => rfl

/-- What the first check gives stands for the same settings as what it was given. -/
theorem gives_sourceOf_toMembers {around : Surroundings} {members : Members} {stored s : Settings}
    (h : Gives (valueOf members) stored) :
    Gives (sourceOf around stored.toMembers) s ↔ Gives (sourceOf around members) s := by
  have hagain : Gives (valueOf stored.toMembers) stored :=
    ofMembers_eq_ok_iff.mp (ofMembers_toMembers (ofMembers_eq_ok_iff.mpr h))
  have hpolicy := getD_iff_getD (P := IsPolicy) policyOf_eq_ok_iff hagain.policy h.policy
    (c := s.policy)
  have hformat := getD_iff_getD (P := IsFormat) formatOf_eq_ok_iff hagain.format h.format
    (c := s.format)
  have hdepth := getD_iff_getD (P := IsDepth) maxDepthOf_eq_ok_iff hagain.maxDepth h.maxDepth
    (c := s.maxDepth)
  have hon := getD_iff_getD (P := IsSwitch) variablesOf_eq_ok_iff hagain.replacesVariables
    h.replacesVariables (c := s.replacesVariables)
  have hcutoff := getD_iff_getD (P := IsCutoff) cutoffOf_eq_ok_iff hagain.cutoff h.cutoff
    (c := s.cutoff)
  exact ⟨fun g => ⟨(hpolicy _).mp g.policy, (hformat _).mp g.format, (hdepth _).mp g.maxDepth,
      (hon _).mp g.replacesVariables, (hcutoff _).mp g.cutoff⟩,
    fun g => ⟨(hpolicy _).mpr g.policy, (hformat _).mpr g.format, (hdepth _).mpr g.maxDepth,
      (hon _).mpr g.replacesVariables, (hcutoff _).mpr g.cutoff⟩⟩

/-- What the two checks make of the members of an object, with the overrides in between. -/
def checkedTwice (around : Surroundings) (members : Members) : Except String Settings := do
  let stored ← ofMembers members
  ofMembers (overridden around stored.toMembers)

theorem checkedTwice_eq_ok_iff {around : Surroundings} {members : Members} {s : Settings} :
    checkedTwice around members = .ok s ↔
      ValidMembers members ∧ Gives (sourceOf around members) s := by
  have hsecond {stored : Settings} (hstored : ofMembers members = .ok stored) :
      ofMembers (overridden around stored.toMembers) = .ok s ↔ Gives (sourceOf around members) s := by
    rw [ofMembers_eq_ok_iff, valueOf_overridden,
      gives_sourceOf_toMembers (ofMembers_eq_ok_iff.mp hstored)]
  rw [checkedTwice, bind_eq_ok_iff, ← ofMembers_isOk_iff]
  constructor
  · rintro ⟨stored, hstored, h⟩
    exact ⟨⟨stored, hstored⟩, (hsecond hstored).mp h⟩
  · rintro ⟨⟨stored, hstored⟩, h⟩
    exact ⟨stored, hstored, (hsecond hstored).mpr h⟩

/-- Where the members are valid, only the overrides can be at fault. -/
theorem exists_gives_sourceOf_iff {around : Surroundings} {members : Members}
    (h : ValidMembers members) :
    (∃ s, Gives (sourceOf around members) s) ↔ ValidOverrides around.environment := by
  obtain ⟨stored, hstored⟩ := ofMembers_isOk_iff.mpr h
  have hgives := ofMembers_eq_ok_iff.mp hstored
  have hoverride {P : Json → String → Prop} (name : String) :
      (∀ v, override? around name = some v → ∃ b, P v b) ↔
        ∀ text, around.environment.setting? name = some text →
          ∃ b, P (.string (.ofString (Text.lower (Text.trim text)))) b := by
    simp [override?]
  have hpolicy := exists_getD_iff (P := IsPolicy) (overrideOf? around "unresolved")
    ⟨_, hgives.policy⟩
  have hformat := exists_getD_iff (P := IsFormat) (overrideOf? around "stringifier")
    ⟨_, hgives.format⟩
  rw [exists_gives_iff]
  constructor
  · rintro ⟨h₁, h₂, -⟩
    exact ⟨(hoverride _).mp (hpolicy.mp h₁), (hoverride _).mp (hformat.mp h₂)⟩
  · intro hvalid
    exact ⟨hpolicy.mpr ((hoverride _).mpr hvalid.policy),
      hformat.mpr ((hoverride _).mpr hvalid.format), ⟨_, hgives.maxDepth⟩,
      ⟨_, hgives.replacesVariables⟩, ⟨_, hgives.cutoff⟩⟩

/-! ## A load -/

/-- The settings file is there and spells an object, with such members as they are written. -/
def Holds (around : Surroundings) (named : Option String) (written : Members) : Prop :=
  ∃ directory path bytes changed text, dataDirectory around named = .ok directory ∧
    findConfig around directory "resolver_defaults" = .ok (path, .ok bytes, .ok changed) ∧
    Encodes bytes text ∧ Json.read .unlimited text = .ok (.object written)

/-- The first thing in an object that is beyond the limits of reading. -/
def firstBeyond? (around : Surroundings) (written : Members) : Option Json.Demand :=
  around.limits.firstBeyond? ((Json.object written).demands 0)

theorem outcome_load_of_holds {around : Surroundings} {cache : Cache} {named : Option String}
    {written : Members} (hcache : cache.Fresh around check) (h : Holds around named written) :
    (load around cache named).outcome =
      match firstBeyond? around written with
      | some demand => .error (.beyondLimits around.limits demand)
      | none => (checkedTwice around (Json.counted written)).mapError ConfigError.wrongType := by
  obtain ⟨directory, path, bytes, changed, text, hdirectory, hfind, htext, hread⟩ := h
  rw [outcome_load named hcache, read, readStored, hdirectory, checkedTwice]
  change ((findConfig around directory "resolver_defaults" >>= _) >>= _) = _
  rw [hfind]
  change ((readObject around.limits path bytes >>= _) >>= _) = _
  rw [readObject_of_object htext hread, firstBeyond?]
  cases around.limits.firstBeyond? ((Json.object written).demands 0) with
  | some demand => rfl
  | none =>
    change ((ofMembers (Json.counted written)).mapError _ >>= _) = _
    cases ofMembers (Json.counted written) <;> rfl

/-- What a load gives, if it gives settings: what the members and the overrides say. -/
theorem outcome_load_eq_ok_iff {around : Surroundings} {cache : Cache} {named : Option String}
    {written : Members} {s : Settings} (hcache : cache.Fresh around check)
    (h : Holds around named written) :
    (load around cache named).outcome = .ok s ↔ firstBeyond? around written = none ∧
      ValidMembers (Json.counted written) ∧ Gives (sourceOf around (Json.counted written)) s := by
  rw [← checkedTwice_eq_ok_iff, outcome_load_of_holds hcache h]
  cases firstBeyond? around written with
  | some demand => exact iff_of_false nofun nofun
  | none =>
    rw [and_iff_right rfl]
    cases checkedTwice around (Json.counted written) with
    | ok t =>
      change Except.ok t = .ok s ↔ _
      rw [Except.ok.injEq, Except.ok.injEq]
    | error message => exact iff_of_false nofun nofun

/-- With settings of known names, and choices of known names before them, there is a context. -/
theorem exists_build {value : String → Json → Json} {s : Settings} (h : Gives value s)
    {choices : Choices}
    (hpolicy : ∀ name, choices.policy = some name → (Policy.ofName? name).isSome)
    (hformat : ∀ name, choices.format = some name → (ColorFormat.ofName? name).isSome) :
    ∃ context, Context.build choices s = .ok context := by
  have hpolicy' : ∃ policy, Policy.ofName? (choices.policy.getD s.policy) = some policy := by
    cases hchoice : choices.policy with
    | none =>
      obtain ⟨-, policy, hname⟩ := h.policy
      exact ⟨policy, Policy.ofName?_eq_some_iff.mpr hname.symm⟩
    | some name => exact Option.isSome_iff_exists.mp (hpolicy name hchoice)
  have hformat' : ∃ format, ColorFormat.ofName? (choices.format.getD s.format) = some format := by
    cases hchoice : choices.format with
    | none =>
      obtain ⟨-, format, hname⟩ := h.format
      exact ⟨format, ColorFormat.ofName?_eq_some_iff.mpr (hname ▸ format.lower_name)⟩
    | some name => exact Option.isSome_iff_exists.mp (hformat name hchoice)
  obtain ⟨policy, hpolicy'⟩ := hpolicy'
  obtain ⟨format, hformat'⟩ := hformat'
  simp only [Context.build, hpolicy', hformat']
  exact ⟨_, rfl⟩

theorem unknownWarnings_toMembers (s : Settings) : unknownWarnings s.toMembers = [] := rfl

/-- The check accepts what it has given, changes nothing and has nothing to warn about. -/
theorem check_run_of_ok {raw accepted : Members} (h : (check.run raw).outcome = .ok accepted) :
    check.run accepted = { outcome := .ok accepted, warnings := [] } := by
  cases hraw : ofMembers raw with
  | error message => simp [check, hraw] at h
  | ok s =>
    obtain rfl : s.toMembers = accepted := by simpa [check, hraw] using h
    simp only [check, ofMembers_toMembers hraw, unknownWarnings_toMembers]

/-- Of the surroundings only the environment counts, of the members only those that are settings. -/
theorem checkedTwice_congr {around around' : Surroundings} {members members' : Members}
    (henvironment : around'.environment = around.environment)
    (hmembers : ∀ key ∈ keys, member? members' key = member? members key) :
    checkedTwice around' members' = checkedTwice around members := by
  have hoverridden : overridden around' = overridden around := by
    funext members
    rw [overridden_eq, overridden_eq, override?, override?, henvironment]
    rfl
  rw [checkedTwice, checkedTwice, ofMembers_congr hmembers, hoverridden]

/-- A load of a file that spells an object gives settings if and only if all that is written in it is
within the limits of reading, each member that is a setting has a valid value, and each override that
is set is valid, trimmed and in lower case.  What is beyond the limits is told first, even in a member
that is no setting; within them, a load without settings says that a value has the wrong type.

Each setting is its override, else the member, else the default, and with these settings there is a
context for all choices of known names.  The check accepts what it has given as it is.  Within the
limits, members that are no settings count for nothing: a file that differs only in these loads alike.
The cache is one that keeps what files say now, as it does all through a session. -/
theorem load_ok_iff_valid {around : Surroundings} {cache : Cache} {named : Option String}
    {written : Members} (hcache : cache.Fresh around check) (hholds : Holds around named written) :
    let outcome := (load around cache named).outcome
    ((∃ s, outcome = .ok s) ↔ firstBeyond? around written = none ∧
      ValidMembers (Json.counted written) ∧ ValidOverrides around.environment) ∧
    (∀ demand, firstBeyond? around written = some demand →
      outcome = .error (.beyondLimits around.limits demand)) ∧
    (firstBeyond? around written = none →
      (∃ s, outcome = .ok s) ∨ ∃ message, outcome = .error (.wrongType message)) ∧
    (∀ s, outcome = .ok s → Gives (sourceOf around (Json.counted written)) s ∧
      ∀ choices : Choices,
        (∀ name, choices.policy = some name → (Policy.ofName? name).isSome) →
        (∀ name, choices.format = some name → (ColorFormat.ofName? name).isSome) →
        ∃ context, Context.build choices s = .ok context) ∧
    (∀ raw accepted, (check.run raw).outcome = .ok accepted →
      check.run accepted = { outcome := .ok accepted, warnings := [] }) ∧
    ∀ around' cache' named' written', cache'.Fresh around' check → Holds around' named' written' →
      firstBeyond? around written = none → firstBeyond? around' written' = none →
      around'.environment = around.environment →
      (∀ key ∈ keys, member? (Json.counted written') key = member? (Json.counted written) key) →
      (load around' cache' named').outcome = outcome := by
  intro outcome
  have houtcome : outcome = match firstBeyond? around written with
      | some demand => .error (.beyondLimits around.limits demand)
      | none => (checkedTwice around (Json.counted written)).mapError ConfigError.wrongType :=
    outcome_load_of_holds hcache hholds
  have hok (s : Settings) : outcome = .ok s ↔ firstBeyond? around written = none ∧
      ValidMembers (Json.counted written) ∧ Gives (sourceOf around (Json.counted written)) s :=
    outcome_load_eq_ok_iff hcache hholds
  refine ⟨?_, fun demand hbeyond => ?_, fun hwithin => ?_, fun s hs => ?_,
    fun _ _ => check_run_of_ok, ?_⟩
  · simp only [hok, exists_and_left]
    exact and_congr_right fun _ => and_congr_right exists_gives_sourceOf_iff
  · rw [houtcome, hbeyond]
  · rw [houtcome, hwithin]
    cases checkedTwice around (Json.counted written) with
    | ok s => exact .inl ⟨s, rfl⟩
    | error message => exact .inr ⟨message, rfl⟩
  · have hgives := ((hok s).mp hs).2.2
    exact ⟨hgives, fun _ => exists_build hgives⟩
  · intro around' cache' named' written' hcache' hholds' hwithin hwithin' henvironment hmembers
    rw [outcome_load_of_holds hcache' hholds', hwithin', houtcome, hwithin]
    dsimp only
    rw [checkedTwice_congr henvironment hmembers]

/-- A format in capitals, and a member that is no setting. -/
def fileText : String :=
  "\x7b\"unresolved\": \"ignore\", \"stringifier\": \"HSL\", \"theme\": 12\x7d"

theorem exists_read_fileText : ∃ written, Json.read .unlimited fileText = .ok (.object written) ∧
    (Json.object written).demands 0 = [.object 1, .integer 2] := by
  have h : (Json.read .unlimited fileText).toOption.map (fun value =>
      (value.kindName, value.demands 0)) = some ("dict", [.object 1, .integer 2]) := by
    decide +kernel
  cases hread : Json.read .unlimited fileText with
  | error e => rw [hread] at h; cases h
  | ok value =>
    rw [hread] at h
    obtain ⟨hkind, hdemands⟩ := Prod.mk.inj (Option.some.inj h)
    cases value with
    | object written => exact ⟨written, rfl, hdemands⟩
    | _ => simp [Json.kindName] at hkind

/-- A settings file with that text, and an override. -/
def overriddenFile : Surroundings :=
  { files := Files.write {} ⟨["data", "resolver_defaults.json"]⟩ fileText.toUTF8.data.toList 1
    environment := ⟨[("COLOR_MOD_UNRESOLVED", " Warn ")]⟩
    candidates := [⟨["data"]⟩] }

/-- The same, but integers of one digit are all that is read. -/
def overriddenFileOfOneDigit : Surroundings :=
  { overriddenFile with limits := { digits := some 1 } }

/-- The override gives the policy, the file the format, and the depth is the default.  Where the
member that is no setting is beyond the limits, there are no settings. -/
theorem load_ok_iff_valid_overriddenFile :
    ∃ written, Holds overriddenFile none written ∧ ValidMembers (Json.counted written) ∧
      ValidOverrides overriddenFile.environment ∧
      (∃ s, (load overriddenFile [] none).outcome = .ok s ∧
        Gives (sourceOf overriddenFile (Json.counted written)) s ∧
        (s.policy, s.format, s.maxDepth) = ("warn", "hsl", 64)) ∧
      Holds overriddenFileOfOneDigit none written ∧
      (load overriddenFileOfOneDigit [] none).outcome =
        .error (.beyondLimits { digits := some 1 } (.integer 2)) := by
  have hfresh (around : Surroundings) : Cache.Fresh [] around check := nofun
  obtain ⟨written, hread, hdemands⟩ := exists_read_fileText
  have hholds : Holds overriddenFile none written :=
    ⟨_, _, fileText.toUTF8.data.toList, 1, fileText, rfl, rfl, rfl, hread⟩
  have hholds' : Holds overriddenFileOfOneDigit none written :=
    ⟨_, _, fileText.toUTF8.data.toList, 1, fileText, rfl, rfl, rfl, hread⟩
  obtain ⟨hvalid, -, -, hgives, -⟩ := load_ok_iff_valid (hfresh _) hholds
  obtain ⟨-, hbeyond, -⟩ := load_ok_iff_valid (hfresh _) hholds'
  have hvalues : (load overriddenFile [] none).outcome.toOption.map
      (fun s => (s.policy, s.format, s.maxDepth)) = some ("warn", "hsl", 64) := by
    decide +kernel
  cases hload : (load overriddenFile [] none).outcome with
  | error e => rw [hload] at hvalues; cases hvalues
  | ok s =>
    rw [hload] at hvalues
    obtain ⟨-, hmembers, hoverrides⟩ := hvalid.mp ⟨s, hload⟩
    refine ⟨written, hholds, hmembers, hoverrides,
      ⟨s, rfl, (hgives s hload).1, Option.some.inj hvalues⟩, hholds', hbeyond _ ?_⟩
    rw [firstBeyond?, hdemands]
    rfl

end Settings

end ColorMod
