import ColorMod.Scalar.Binary64
import ColorMod.Proofs.Reports

/-!
# What is passed over in a call

A `color-mod` call starts from its seed, which may be a `color-mod` call again, and applies its
adjusters from left to right.  `Node.Resolves` tells this as a derivation that collects the
complaints about the adjusters that are passed over, along the chain of seeds.

* `returns_resolveColorMod_iff`: under `warn` a call returns a color just when there is such a
  derivation, and the diagnostics are just the complaints that it collects.
* `seed_chain_reports`: so under `raise` nothing is passed over, and under `ignore` silently.

A color among the arguments of an adjuster is read quietly.  What a `color-mod` there passes over
belongs to no chain of seeds, and no policy tells of it.
-/

namespace ColorMod

open Run

variable {α : Type} [Scalar α] [LightCurve α]

/-! ## Adjusters one by one -/

namespace Node

/-- The adjuster leads from a color to the next: it has a name, the arguments fit a form of it, and
the values in them do that. -/
structure Adjusts (ctx : Context α) (a : Node) (c c' : Color α) : Prop where
  isFunction : a.isFunction
  change : ∃ adjuster values, Adjuster.ofName? (Adjuster.fullName a.value) = some adjuster ∧
    (Pattern.firstOf adjuster.patterns (argumentMeanings a) ctx).outcome = .ok (some values) ∧
    adjuster.change c values = .ok (some c')

/-- The adjuster leads from a color to none, which is no fault but a complaint. -/
def Refuses (ctx : Context α) (a : Node) (c : Color α) (u : Unresolved) : Prop :=
  (applyAdjuster c a ctx.quiet).outcome = .ok (.error u)

end Node

omit [LightCurve α] in
theorem Adjuster.unfit_ne_ok (node : Node) (adjuster : Adjuster) (fullName : String)
    (args : List (Argument α)) (ctx : Context α) (c : Color α) :
    (Adjuster.unfit node adjuster fullName args ctx).outcome ≠ .ok (.ok c) := by
  intro h
  unfold Adjuster.unfit at h
  split at h
  · obtain ⟨hint, -, h⟩ := outcome_bind_eq_ok_iff.mp h
    exact ctx.reject_ne_ok _ _ _ c h
  · exact ctx.reject_ne_ok _ _ _ c h

/-- An adjuster returns a color just when it leads to it, whatever the policy is. -/
theorem applyAdjuster_eq_ok_iff {ctx : Context α} {a : Node} {c c' : Color α} :
    (applyAdjuster c a ctx).outcome = .ok (.ok c') ↔ a.Adjusts ctx c c' := by
  rw [applyAdjuster_eq, ← argumentMeanings_eq]
  unfold Adjuster.applyNode
  constructor
  · intro h
    split at h
    · next hfun =>
      dsimp only at h
      split at h
      · obtain ⟨complaint, -, h⟩ := outcome_bind_eq_ok_iff.mp h
        exact (ctx.reject_ne_ok _ _ _ _ h).elim
      · next adjuster hname =>
        obtain ⟨values, hvalues, h⟩ := outcome_bind_eq_ok_iff.mp h
        cases values with
        | none => exact (Adjuster.unfit_ne_ok _ _ _ _ _ _ h).elim
        | some values =>
          obtain ⟨changed, hchange, h⟩ := outcome_bind_eq_ok_iff.mp h
          cases changed with
          | none => exact (Adjuster.unfit_ne_ok _ _ _ _ _ _ h).elim
          | some adjusted =>
            cases h
            exact ⟨hfun, adjuster, values, hname, hvalues,
              outcome_ofArithmetic_eq_ok_iff.mp hchange⟩
    · exact (ctx.reject_ne_ok _ _ _ _ h).elim
  · rintro ⟨hfun, adjuster, values, hname, hvalues, hchange⟩
    rw [if_pos hfun]
    dsimp only
    rw [hname]
    refine outcome_bind_eq_ok_iff.mpr ⟨some values, hvalues, ?_⟩
    refine outcome_bind_eq_ok_iff.mpr ⟨some c', outcome_ofArithmetic_eq_ok_iff.mpr hchange, ?_⟩
    rfl

/-- Under `warn` an adjuster that leads to a color notes nothing. -/
theorem returns_applyAdjuster_ok_iff {ctx : Context α} {a : Node} {c c' : Color α}
    {ds : List Diagnostic} :
    Returns (applyAdjuster c a (ctx.under .warn)) (.ok c') ds ↔ a.Adjusts ctx c c' ∧ ds = [] := by
  have hpolicy : a.Adjusts (ctx.under .warn) c c' ↔ a.Adjusts ctx c c' := by
    constructor
    all_goals
      rintro ⟨hfun, adjuster, values, hname, hvalues, hchange⟩
      refine ⟨hfun, adjuster, values, hname, ?_, hchange⟩
    · rwa [Pattern.firstOf_under] at hvalues
    · rwa [Pattern.firstOf_under]
  rw [← hpolicy, ← applyAdjuster_eq_ok_iff]
  constructor
  · rintro ⟨h, rfl⟩
    exact ⟨h, (applyAdjuster_reports a ctx c).of_ok c' h⟩
  · rintro ⟨h, rfl⟩
    exact ⟨h, (applyAdjuster_reports a ctx c).of_ok c' h⟩

/-- Under `warn` an adjuster that leads to no color notes the complaint about it. -/
theorem returns_applyAdjuster_error_iff {ctx : Context α} {a : Node} {c : Color α}
    {u : Unresolved} {ds : List Diagnostic} :
    Returns (applyAdjuster c a (ctx.under .warn)) (.error u) ds ↔
      a.Refuses ctx c u ∧ ds = [u.toDiagnostic] := by
  have hpolicy : (applyAdjuster c a (ctx.under .ignore)).outcome =
      (applyAdjuster c a (ctx.under .warn)).outcome := ((meaning_agree a).adjust c ctx).outcome_eq
  rw [Node.Refuses, ← Context.under_ignore, hpolicy]
  constructor
  · rintro ⟨h, rfl⟩
    exact ⟨h, (applyAdjuster_reports a ctx c).of_error u h⟩
  · rintro ⟨h, rfl⟩
    exact ⟨h, (applyAdjuster_reports a ctx c).of_error u h⟩

/-! ## The adjusters of a call -/

/-- Adjusters lead from a color to the last, one after the other; the complaints are those about
the adjusters that are passed over. -/
inductive Adjusted (ctx : Context α) :
    Color α → List Node → Color α → List Unresolved → Prop where
  | done {c} : Adjusted ctx c [] c []
  | applied {a as c c₁ c₂ us} : a.Adjusts ctx c c₁ → Adjusted ctx c₁ as c₂ us →
      Adjusted ctx c (a :: as) c₂ us
  | skipped {a as c c₂ u us} : a.Refuses ctx c u → Adjusted ctx c as c₂ us →
      Adjusted ctx c (a :: as) c₂ (u :: us)

/-- Under `warn` the diagnostics of adjusters are the complaints about those that are passed over. -/
theorem returns_applyAdjusters_iff {ctx : Context α} {nodes : List Node} {c c' : Color α}
    {ds : List Diagnostic} :
    Returns (applyAdjusters c nodes (ctx.under .warn)) c' ds ↔
      ∃ us, Adjusted ctx c nodes c' us ∧ ds = us.map Unresolved.toDiagnostic := by
  induction nodes generalizing c ds with
  | nil =>
    refine returns_pure_iff.trans ⟨?_, ?_⟩
    · rintro ⟨rfl, rfl⟩
      exact ⟨[], .done, rfl⟩
    · rintro ⟨_, ⟨⟩, rfl⟩
      exact ⟨rfl, rfl⟩
  | cons a as ih =>
    refine returns_bind_iff.trans ⟨?_, ?_⟩
    · rintro ⟨resolved, ds₁, ds₂, ha, has, rfl⟩
      cases resolved with
      | ok c₁ =>
        obtain ⟨hadjusts, rfl⟩ := returns_applyAdjuster_ok_iff.mp ha
        obtain ⟨us, hrest, rfl⟩ := ih.mp (returns_tell_bind_iff.mp has)
        exact ⟨us, .applied hadjusts hrest, rfl⟩
      | error u =>
        obtain ⟨hrefuses, rfl⟩ := returns_applyAdjuster_error_iff.mp ha
        obtain ⟨us, hrest, rfl⟩ := ih.mp (returns_tell_bind_iff.mp has)
        exact ⟨u :: us, .skipped hrefuses hrest, rfl⟩
    · rintro ⟨us, hus, rfl⟩
      cases hus with
      | applied hadjusts has =>
        exact ⟨.ok _, [], _, returns_applyAdjuster_ok_iff.mpr ⟨hadjusts, rfl⟩,
          returns_tell_bind_iff.mpr (ih.mpr ⟨us, has, rfl⟩), rfl⟩
      | skipped hrefuses has =>
        exact ⟨.error _, [_], _, returns_applyAdjuster_error_iff.mpr ⟨hrefuses, rfl⟩,
          returns_tell_bind_iff.mpr (ih.mpr ⟨_, has, rfl⟩), rfl⟩

/-! ## The chain of seeds -/

mutual

/-- A seed gives a color: as a hue, as a color other than a call, or as a call, with what that
passes over. -/
inductive Node.Seeds : Context α → Node → Color α → List Unresolved → Prop where
  | hue {ctx n hue} : n.isHue → Component.hue? n = some hue →
      Seeds ctx n (.ofChannels .hsl ⟨hue, 1, 0.5⟩ 1) []
  | color {ctx n c} : ¬n.isHue → ¬n.isCall → (resolveColor n ctx.quiet).outcome = .ok (.ok c) →
      Seeds ctx n c []
  | call {ctx n c us} : n.isCall → Node.Resolves ctx n c us → Seeds ctx n c us

/-- A call resolves to a color: its adjusters, one level deeper, lead there from the color of its
seed. -/
inductive Node.Resolves : Context α → Node → Color α → List Unresolved → Prop where
  | call {ctx n seed adjusters c₀ c us₀ us} : ¬ctx.tooDeep → n.arguments = seed :: adjusters →
      Node.Seeds ctx.descend seed c₀ us₀ → Adjusted ctx.descend c₀ adjusters c us →
      Resolves ctx n c (us₀ ++ us)

end

omit [LightCurve α] in
theorem Node.not_isHue_of_isCall {n : Node} (h : n.isCall) : ¬n.isHue := by
  simp [Node.isHue, ((Node.isCall_iff n).mp h).1]

/-- Under `warn` a seed that gives a color notes what it passes over as a call. -/
theorem returns_resolveSeed_iff {ctx : Context α} {n : Node} {c : Color α} {ds : List Diagnostic}
    (hcall : ∀ c ds, Returns (resolveColorMod n (ctx.under .warn)) (.ok c) ds ↔
      ∃ us, n.Resolves ctx c us ∧ ds = us.map Unresolved.toDiagnostic) :
    Returns (resolveSeed (meaning n) (ctx.under .warn)) (.ok c) ds ↔
      ∃ us, n.Seeds ctx c us ∧ ds = us.map Unresolved.toDiagnostic := by
  rw [resolveSeed, meaning_node]
  constructor
  · intro h
    by_cases hhue : n.isHue
    · rw [if_pos hhue] at h
      cases hread : (Component.hue? n : Option α) with
      | none =>
        rw [hread] at h
        exact (Context.reject_ne_ok _ _ _ _ _ h.outcome_eq).elim
      | some hue =>
        rw [hread] at h
        cases h.outcome_eq
        exact ⟨[], .hue hhue hread, h.diagnostics_eq.symm⟩
    · rw [if_neg hhue] at h
      by_cases hn : n.isCall
      · change Returns (resolveColor n (ctx.under .warn)) (.ok c) ds at h
        rw [resolveColor_of_isCall n _ hn] at h
        obtain ⟨us, hus, rfl⟩ := (hcall c ds).mp h
        exact ⟨us, .call hn hus, rfl⟩
      · refine ⟨[], .color hhue hn ?_, ?_⟩
        · exact ((meaning_agree n).color ctx).outcome_eq.trans h.outcome_eq
        · exact h.diagnostics_eq.symm.trans ((resolveColor_reports n ctx hn).of_ok c h.outcome_eq)
  · rintro ⟨us, hus, rfl⟩
    cases hus with
    | hue hhue hread =>
      rw [if_pos hhue, hread]
      exact ⟨rfl, rfl⟩
    | color hhue hn hquiet =>
      rw [if_neg hhue]
      have hwarn := ((meaning_agree n).color ctx).outcome_eq.symm.trans hquiet
      exact ⟨hwarn, (resolveColor_reports n ctx hn).of_ok c hwarn⟩
    | call hn hresolves =>
      rw [if_neg (Node.not_isHue_of_isCall hn)]
      change Returns (resolveColor n (ctx.under .warn)) (.ok c) _
      rw [resolveColor_of_isCall n _ hn]
      exact (hcall c _).mpr ⟨us, hresolves, rfl⟩

omit [LightCurve α] in
/-- A call that returns a color does so through its seed and its adjusters, one level deeper. -/
theorem returns_resolveCall_iff {n : Node} {args : List (Argument α)} {ctx : Context α}
    {c : Color α} {ds : List Diagnostic} :
    Returns (resolveCall n args ctx) (.ok c) ds ↔
      ¬ctx.tooDeep ∧ ∃ seed adjusters c₀ ds₀ ds₁, args = seed :: adjusters ∧
        Returns (resolveSeed seed ctx.descend) (.ok c₀) ds₀ ∧
        Returns (Adjuster.applyAll ctx.descend c₀ adjusters) c ds₁ ∧ ds = ds₀ ++ ds₁ := by
  unfold resolveCall
  constructor
  · intro h
    split at h
    · exact (Context.reject_ne_ok _ _ _ _ _ h.outcome_eq).elim
    · next hdepth =>
      refine ⟨hdepth, ?_⟩
      cases args with
      | nil => exact (Context.reject_ne_ok _ _ _ _ _ h.outcome_eq).elim
      | cons seed adjusters =>
        obtain ⟨resolved, ds₀, ds', hseed, h, rfl⟩ := returns_bind_iff.mp h
        cases resolved with
        | error u => exact (Context.reject_ne_ok _ _ _ _ _ h.outcome_eq).elim
        | ok c₀ =>
          obtain ⟨c', ds₁, ds₂, hadjusters, hreturn, rfl⟩ :=
            returns_bind_iff.mp (returns_tell_bind_iff.mp h)
          obtain ⟨hc, rfl⟩ := returns_pure_iff.mp hreturn
          cases hc
          exact ⟨seed, adjusters, c₀, ds₀, ds₁, rfl, hseed, hadjusters, by rw [List.append_nil]⟩
  · rintro ⟨hdepth, seed, adjusters, c₀, ds₀, ds₁, rfl, hseed, hadjusters, rfl⟩
    rw [if_neg hdepth]
    refine returns_bind_iff.mpr ⟨.ok c₀, ds₀, ds₁, hseed, returns_tell_bind_iff.mpr ?_, rfl⟩
    exact returns_bind_iff.mpr
      ⟨c, ds₁, [], hadjusters, returns_pure_iff.mpr ⟨rfl, rfl⟩, (List.append_nil _).symm⟩

/-- Under `warn` a call returns a color just when it resolves to it, and its diagnostics are the
complaints about the adjusters that are passed over along the chain of seeds. -/
theorem returns_resolveColorMod_iff (n : Node) : ∀ (ctx : Context α) (c : Color α)
    (ds : List Diagnostic), Returns (resolveColorMod n (ctx.under .warn)) (.ok c) ds ↔
      ∃ us, n.Resolves ctx c us ∧ ds = us.map Unresolved.toDiagnostic := by
  induction n using Node.induction_on_arguments with
  | step n ih =>
    intro ctx c ds
    rw [resolveColorMod_eq, returns_resolveCall_iff, Context.under_tooDeep, Context.under_descend]
    constructor
    · rintro ⟨hdepth, _, _, c₀, ds₀, ds₁, hargs, hseed, hadjusters, rfl⟩
      obtain ⟨seed, adjusters, hn, rfl, rfl⟩ := List.map_eq_cons_iff.mp hargs
      have hcalls := ih seed (hn ▸ List.mem_cons_self) ctx.descend
      obtain ⟨us₀, hseeds, rfl⟩ := (returns_resolveSeed_iff hcalls).mp hseed
      rw [← meanings_eq_map] at hadjusters
      obtain ⟨us, hadjusted, rfl⟩ := returns_applyAdjusters_iff.mp hadjusters
      exact ⟨us₀ ++ us, .call hdepth hn hseeds hadjusted, (List.map_append ..).symm⟩
    · rintro ⟨us, hus, rfl⟩
      obtain ⟨hdepth, hn, hseed, hadjusters⟩ := hus
      rename_i seed adjusters c₀ us₀ us
      have hcalls := ih seed (hn ▸ List.mem_cons_self) ctx.descend
      refine ⟨hdepth, meaning seed, meanings adjusters, c₀, _, _, ?_,
        (returns_resolveSeed_iff hcalls).mpr ⟨us₀, hseed, rfl⟩,
        returns_applyAdjusters_iff.mpr ⟨us, hadjusters, rfl⟩, List.map_append ..⟩
      rw [hn, meanings_eq_map, List.map_cons]

/-- Along the chain of seeds nothing is passed over silently: `raise` returns a color only when every
adjuster is applied, `warn` notes each one that is not, and `ignore` returns the same colors.  What
is noted for a call is what is noted when the call is replaced. -/
theorem seed_chain_reports (call : Node) (ctx : Context α) (c : Color α) :
    ((resolveColorMod call (ctx.under .raise)).outcome = .ok (.ok c) ↔ call.Resolves ctx c []) ∧
    (∀ ds, Returns (resolveColorMod call (ctx.under .warn)) (.ok c) ds ↔
      ∃ us, call.Resolves ctx c us ∧ ds = us.map Unresolved.toDiagnostic) ∧
    ((resolveColorMod call (ctx.under .ignore)).outcome = .ok (.ok c) ↔
      ∃ us, call.Resolves ctx c us) ∧
    (replaceCall call (ctx.under .warn)).diagnostics =
      (resolveColorMod call (ctx.under .warn)).diagnostics := by
  have hagree := resolveColorMod_agree call ctx
  have hwarn := returns_resolveColorMod_iff call ctx c
  refine ⟨⟨fun h => ?_, fun h => ?_⟩, hwarn, ⟨fun h => ?_, fun ⟨us, h⟩ => ?_⟩, ?_⟩
  · cases hd : (resolveColorMod call (ctx.under .warn)).diagnostics with
    | nil =>
      obtain ⟨us, hus, hnil⟩ := (hwarn []).mp ⟨(hagree.unreported hd).symm.trans h, hd⟩
      rwa [List.map_eq_nil_iff.mp hnil.symm] at hus
    | cons d ds =>
      obtain ⟨u, hu, -⟩ := hagree.reported d ds hd
      rw [h] at hu
      cases hu
  · obtain ⟨hok, hnil⟩ := (hwarn []).mpr ⟨[], h, rfl⟩
    exact (hagree.unreported hnil).trans hok
  · obtain ⟨us, hus, -⟩ := (hwarn _).mp ⟨hagree.outcome_eq.symm.trans h, rfl⟩
    exact ⟨us, hus⟩
  · exact hagree.outcome_eq.trans ((hwarn _).mpr ⟨us, h, rfl⟩).outcome_eq
  · refine diagnostics_bind_of_silent fun resolved => ?_
    cases resolved with
    | ok c => exact diagnostics_bind_eq_nil rfl fun _ => rfl
    | error u => rfl

/-! ## A color in the arguments of an adjuster -/

/-- `color-mod(blue nope())` -/
def Node.blueWithUnknown : Node :=
  .function colorModName [.word "blue", .function "nope" []]

/-- `color-mod(red blend(color-mod(blue nope()) 50%))` -/
def Node.redBlended : Node :=
  .function colorModName [.word "red", .function "blend" [.blueWithUnknown, .number "50" "%"]]

theorem Node.not_adjusts_of_unknown {ctx : Context α} {a : Node} {c c' : Color α}
    (h : Adjuster.ofName? (Adjuster.fullName a.value) = none) : ¬a.Adjusts ctx c c' := by
  rintro ⟨-, adjuster, values, hname, -⟩
  rw [h] at hname
  cases hname

omit [Scalar α] [LightCurve α] in
theorem exists_color_of_any {x : Except Fault (Resolution α)}
    (h : x.toOption.any fun resolved => resolved.isOk) : ∃ c, x = .ok (.ok c) := by
  match x, h with
  | .ok (.ok c), _ => exact ⟨c, rfl⟩

/-- In a call that is the color of a blend an unknown adjuster is passed over, and neither `raise`
nor `warn` tells of it. -/
theorem blend_hides_unknown_adjuster :
    let ctx : Context Float := { policy := .raise, format := .legacy, maxDepth := 64, cutoff := 75 }
    (∃ c, (resolveColorMod Node.redBlended ctx).outcome = .ok (.ok c)) ∧
    (∃ c, Returns (resolveColorMod Node.redBlended (ctx.under .warn)) (.ok c) []) ∧
    Node.function "nope" [] ∈ Node.blueWithUnknown.arguments ∧
    ∀ ctx' (c c' : Color Float), ¬(Node.function "nope" []).Adjusts ctx' c c' := by
  intro ctx
  have hraise : ∃ c, (resolveColorMod Node.redBlended ctx).outcome = .ok (.ok c) :=
    exists_color_of_any (by decide +kernel)
  have hnil : (resolveColorMod Node.redBlended (ctx.under .warn)).diagnostics = [] := by
    decide +kernel
  refine ⟨hraise, ?_, ?_, fun ctx' c c' => Node.not_adjusts_of_unknown (by decide +kernel)⟩
  · obtain ⟨c, hc⟩ := hraise
    have hwarn := (resolveColorMod_agree Node.redBlended ctx).unreported hnil
    exact ⟨c, hwarn.symm.trans hc, hnil⟩
  · exact List.mem_cons_of_mem _ List.mem_cons_self

end ColorMod
