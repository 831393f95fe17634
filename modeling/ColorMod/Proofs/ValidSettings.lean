import ColorMod.Proofs.AlphaChannel
import ColorMod.Settings.Stored

/-!
# Values that settings can have

Each setting has its own relation between the value that stands for it and what it then is
(`IsPolicy`, `IsFormat`, `IsDepth`, `IsSwitch`, `IsCutoff`).  The check of an object goes through the
settings one by one and takes the default for a setting that the object leaves out.

* `policyOf_eq_ok_iff` and the others: one setting.
* `ofMembers_eq_ok_iff`, `ofMembers_isOk_iff`: the settings that an object gives, and which objects
  give any.
* `ofMembers_congr`: members that are no settings do not matter.
* `ofMembers_toMembers`: settings that were checked are given again by a second check.
-/

namespace ColorMod

open Json (Members)

theorem CodeText.toString?_eq_some_iff {text : CodeText} {s : String} :
    text.toString? = some s ↔ text = ofString s := by
  have hcharacters (t : CodeText) (cs : List Char) :
      t.mapM CodePoint.character? = some cs ↔ t = cs.map .character := by
    induction t generalizing cs with
    | nil => cases cs <;> simp
    | cons p t ih =>
      rw [List.mapM_cons]
      cases p with
      | character c =>
        cases cs with
        | nil => simp [CodePoint.character?, Option.bind_eq_some_iff]
        | cons d cs => simpa [CodePoint.character?, Option.bind_eq_some_iff, ih] using and_comm
      | surrogate n => cases cs <;> simp [CodePoint.character?]
  rw [toString?, ofString, Option.map_eq_some_iff]
  simp only [hcharacters]
  exact ⟨by rintro ⟨cs, rfl, rfl⟩; rw [String.toList_ofList], fun h => ⟨_, h, String.ofList_toList⟩⟩

theorem Json.text?_eq_some_iff {value : Json} {s : String} :
    value.text? = some s ↔ value = .string (.ofString s) := by
  cases value with
  | string text => simp [text?, CodeText.toString?_eq_some_iff]
  | _ => simp [text?]

theorem Policy.ofName?_eq_some_iff {name : String} {policy : Policy} :
    ofName? name = some policy ↔ name = policy.name := by
  constructor
  · intro h
    have hname := List.find?_some h
    exact (beq_iff_eq.mp hname).symm
  · rintro rfl
    cases policy <;> decide

/-- The names of formats are told apart after they are put in lower case. -/
theorem ColorFormat.ofName?_eq_some_iff {name : String} {format : ColorFormat} :
    ofName? name = some format ↔ Text.lower name = format.name := by
  unfold ofName?
  constructor
  · intro h
    have hname := List.find?_some h
    exact (beq_iff_eq.mp hname).symm
  · intro h
    rw [h]
    cases format <;> decide

theorem ColorFormat.lower_name (format : ColorFormat) : Text.lower format.name = format.name := by
  cases format <;> decide

namespace Settings

/-! ## One setting -/

/-- The value is the name of a policy. -/
def IsPolicy (value : Json) (name : String) : Prop :=
  value = .string (.ofString name) ∧ ∃ policy : Policy, policy.name = name

/-- The value is the name of a format, in any letter case. -/
def IsFormat (value : Json) (name : String) : Prop :=
  (∃ text, value = .string (.ofString text) ∧ Text.lower text = name) ∧
    ∃ format : ColorFormat, format.name = name

/-- The value is an integer of at least one. -/
def IsDepth (value : Json) (depth : Int) : Prop :=
  value = .int depth ∧ 1 ≤ depth

/-- The value is true or false. -/
def IsSwitch (value : Json) (on : Bool) : Prop :=
  value = .bool on

/-- The value is a number from 0 to 100; an integer stands for the double of its size. -/
inductive IsCutoff : Json → Float → Prop where
  | int {n : Nat} (h : n ≤ 100) : IsCutoff (.int n) (Scalar.ofDecimal n 0)
  | float {x : Float} (h : 0 ≤ x ∧ x ≤ 100) : IsCutoff (.float x) x

theorem policyOf_eq_ok_iff {value : Json} {name : String} :
    policyOf value = .ok name ↔ IsPolicy value name := by
  unfold policyOf IsPolicy
  constructor
  · intro h
    split at h
    · next policy hpolicy =>
      cases h
      obtain ⟨text, htext, hname⟩ := Option.bind_eq_some_iff.mp hpolicy
      rw [Policy.ofName?_eq_some_iff] at hname
      exact ⟨hname ▸ Json.text?_eq_some_iff.mp htext, policy, rfl⟩
    · cases h
  · rintro ⟨hvalue, policy, rfl⟩
    rw [Json.text?_eq_some_iff.mpr hvalue, Option.bind_some, Policy.ofName?_eq_some_iff.mpr rfl]

theorem formatOf_eq_ok_iff {value : Json} {name : String} :
    formatOf value = .ok name ↔ IsFormat value name := by
  unfold formatOf IsFormat
  constructor
  · intro h
    split at h
    · next format hformat =>
      cases h
      obtain ⟨text, htext, hname⟩ := Option.bind_eq_some_iff.mp hformat
      exact ⟨⟨text, Json.text?_eq_some_iff.mp htext, ColorFormat.ofName?_eq_some_iff.mp hname⟩,
        format, rfl⟩
    · cases h
  · rintro ⟨⟨text, hvalue, htext⟩, format, rfl⟩
    rw [Json.text?_eq_some_iff.mpr hvalue, Option.bind_some,
      ColorFormat.ofName?_eq_some_iff.mpr htext]

theorem maxDepthOf_eq_ok_iff {value : Json} {depth : Int} :
    maxDepthOf value = .ok depth ↔ IsDepth value depth := by
  unfold maxDepthOf IsDepth
  constructor
  · intro h
    cases value with
    | int n =>
      dsimp only at h
      split at h
      · next hn => cases h; exact ⟨rfl, hn⟩
      · cases h
    | _ => cases h
  · rintro ⟨rfl, hdepth⟩
    exact if_pos hdepth

theorem variablesOf_eq_ok_iff {value : Json} {on : Bool} :
    variablesOf value = .ok on ↔ IsSwitch value on := by
  cases value with
  | bool b => simp [variablesOf, IsSwitch]
  | _ => simp [variablesOf, IsSwitch, refuse]

theorem cutoffOf_eq_ok_iff {value : Json} {x : Float} :
    cutoffOf value = .ok x ↔ IsCutoff value x := by
  unfold cutoffOf
  constructor
  · intro h
    cases value with
    | int n =>
      dsimp only at h
      split at h
      · next hn =>
        cases h
        obtain ⟨k, rfl⟩ := Int.eq_ofNat_of_zero_le hn.1
        exact .int (by omega)
      · cases h
    | float y =>
      dsimp only at h
      split at h
      · next hy => cases h; exact .float hy
      · cases h
    | _ => cases h
  · rintro (h | h)
    · exact if_pos (by omega)
    · exact if_pos h

/-! ### Values that are settings again -/

theorem IsFormat.again {value : Json} {name : String} (h : IsFormat value name) :
    IsFormat (.string (.ofString name)) name := by
  obtain ⟨-, format, rfl⟩ := h
  exact ⟨⟨_, rfl, format.lower_name⟩, format, rfl⟩

/-- A whole number up to 100 is a double of the same size. -/
theorem IsCutoff.again {value : Json} {x : Float} (h : IsCutoff value x) :
    IsCutoff (.float x) x := by
  cases h with
  | @int n hn =>
    have hwhole : ∀ k : Fin 101, (0 : Float) ≤ Scalar.ofDecimal k.val 0 ∧
        (Scalar.ofDecimal k.val 0 : Float) ≤ 100 := by decide +kernel
    exact .float (hwhole ⟨n, by omega⟩)
  | float hx => exact .float hx

/-! ## All settings -/

/-- The member of an object that is a setting. -/
def member? (members : Members) (key : String) : Option Json :=
  members.lookup (CodeText.ofString key)

/-- What an object gives for a setting: its member, else a default. -/
def valueOf (members : Members) (key : String) (otherwise : Json) : Json :=
  (member? members key).getD otherwise

/-- The settings are what the given values stand for. -/
structure Gives (value : String → Json → Json) (s : Settings) : Prop where
  policy : IsPolicy (value "unresolved" (.string "throw")) s.policy
  format : IsFormat (value "stringifier" (.string "legacy")) s.format
  maxDepth : IsDepth (value "max_depth" (.int 64)) s.maxDepth
  replacesVariables : IsSwitch (value "transform_vars" (.bool true)) s.replacesVariables
  cutoff : IsCutoff (value "suggestion_cutoff" (.float 75)) s.cutoff

/-- Each member that is a setting has a value that stands for one. -/
structure ValidMembers (members : Members) : Prop where
  policy : ∀ value, member? members "unresolved" = some value → ∃ name, IsPolicy value name
  format : ∀ value, member? members "stringifier" = some value → ∃ name, IsFormat value name
  maxDepth : ∀ value, member? members "max_depth" = some value → ∃ depth, IsDepth value depth
  replacesVariables : ∀ value, member? members "transform_vars" = some value →
    ∃ on, IsSwitch value on
  cutoff : ∀ value, member? members "suggestion_cutoff" = some value → ∃ x, IsCutoff value x

theorem ofMembers_eq_ok_iff {members : Members} {s : Settings} :
    ofMembers members = .ok s ↔ Gives (valueOf members) s := by
  constructor
  · intro h
    obtain ⟨policy, hpolicy, h⟩ := bind_eq_ok_iff.mp h
    obtain ⟨format, hformat, h⟩ := bind_eq_ok_iff.mp h
    obtain ⟨maxDepth, hmaxDepth, h⟩ := bind_eq_ok_iff.mp h
    obtain ⟨replaces, hreplaces, h⟩ := bind_eq_ok_iff.mp h
    obtain ⟨cutoff, hcutoff, h⟩ := bind_eq_ok_iff.mp h
    cases h
    exact ⟨policyOf_eq_ok_iff.mp hpolicy, formatOf_eq_ok_iff.mp hformat,
      maxDepthOf_eq_ok_iff.mp hmaxDepth, variablesOf_eq_ok_iff.mp hreplaces,
      cutoffOf_eq_ok_iff.mp hcutoff⟩
  · intro h
    refine bind_eq_ok_iff.mpr ⟨_, policyOf_eq_ok_iff.mpr h.policy, ?_⟩
    refine bind_eq_ok_iff.mpr ⟨_, formatOf_eq_ok_iff.mpr h.format, ?_⟩
    refine bind_eq_ok_iff.mpr ⟨_, maxDepthOf_eq_ok_iff.mpr h.maxDepth, ?_⟩
    refine bind_eq_ok_iff.mpr ⟨_, variablesOf_eq_ok_iff.mpr h.replacesVariables, ?_⟩
    exact bind_eq_ok_iff.mpr ⟨_, cutoffOf_eq_ok_iff.mpr h.cutoff, rfl⟩

/-- Only the members that are settings count. -/
theorem ofMembers_congr {members members' : Members}
    (h : ∀ key ∈ keys, member? members key = member? members' key) :
    ofMembers members = ofMembers members' := by
  unfold member? at h
  simp only [ofMembers]
  rw [h "unresolved" (by decide), h "stringifier" (by decide), h "max_depth" (by decide),
    h "transform_vars" (by decide), h "suggestion_cutoff" (by decide)]

/-- Settings that the check gives pass it unchanged. -/
theorem ofMembers_toMembers {members : Members} {s : Settings} (h : ofMembers members = .ok s) :
    ofMembers s.toMembers = .ok s := by
  have hgives : Gives (valueOf members) s := ofMembers_eq_ok_iff.mp h
  exact ofMembers_eq_ok_iff.mpr
    ⟨⟨rfl, hgives.policy.2⟩, hgives.format.again, ⟨rfl, hgives.maxDepth.2⟩, rfl,
      hgives.cutoff.again⟩

/-! ### Which values give settings -/

theorem exists_gives_iff {value : String → Json → Json} :
    (∃ s, Gives value s) ↔
      (∃ name, IsPolicy (value "unresolved" (.string "throw")) name) ∧
      (∃ name, IsFormat (value "stringifier" (.string "legacy")) name) ∧
      (∃ depth, IsDepth (value "max_depth" (.int 64)) depth) ∧
      (∃ on, IsSwitch (value "transform_vars" (.bool true)) on) ∧
      ∃ x, IsCutoff (value "suggestion_cutoff" (.float 75)) x := by
  constructor
  · rintro ⟨s, h⟩
    exact ⟨⟨_, h.policy⟩, ⟨_, h.format⟩, ⟨_, h.maxDepth⟩, ⟨_, h.replacesVariables⟩, ⟨_, h.cutoff⟩⟩
  · rintro ⟨⟨policy, hpolicy⟩, ⟨format, hformat⟩, ⟨maxDepth, hmaxDepth⟩, ⟨on, hon⟩, ⟨x, hx⟩⟩
    exact ⟨⟨policy, format, maxDepth, on, x⟩, hpolicy, hformat, hmaxDepth, hon, hx⟩

/-- Where the default is valid, all depends on the value that goes before it. -/
theorem exists_getD_iff {β : Type} {P : Json → β → Prop} (value : Option Json) {otherwise : Json}
    (hotherwise : ∃ b, P otherwise b) :
    (∃ b, P (value.getD otherwise) b) ↔ ∀ v, value = some v → ∃ b, P v b := by
  cases value with
  | none => exact ⟨fun _ _ hv => (nomatch hv), fun _ => hotherwise⟩
  | some v => exact ⟨fun h _ hv => Option.some.inj hv ▸ h, fun h => h v rfl⟩

theorem ofMembers_isOk_iff {members : Members} :
    (∃ s, ofMembers members = .ok s) ↔ ValidMembers members := by
  have hpolicy : ∃ name, IsPolicy (.string "throw") name := ⟨_, rfl, .raise, rfl⟩
  have hformat : ∃ name, IsFormat (.string "legacy") name := ⟨_, ⟨_, rfl, rfl⟩, .legacy, by decide⟩
  have hdepth : ∃ depth, IsDepth (.int 64) depth := ⟨_, rfl, by decide⟩
  have hon : ∃ on, IsSwitch (.bool true) on := ⟨_, rfl⟩
  have hcutoff : ∃ x, IsCutoff (.float 75) x := ⟨_, .float (by decide +kernel)⟩
  simp only [ofMembers_eq_ok_iff, exists_gives_iff, valueOf, exists_getD_iff _ hpolicy,
    exists_getD_iff _ hformat, exists_getD_iff _ hdepth, exists_getD_iff _ hon,
    exists_getD_iff _ hcutoff]
  exact ⟨fun ⟨h₁, h₂, h₃, h₄, h₅⟩ => ⟨h₁, h₂, h₃, h₄, h₅⟩,
    fun h => ⟨h.policy, h.format, h.maxDepth, h.replacesVariables, h.cutoff⟩⟩

end Settings

end ColorMod
