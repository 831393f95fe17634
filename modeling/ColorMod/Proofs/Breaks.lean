import ColorMod.Proofs.Conversions
import ColorMod.Proofs.SeedChain

/-!
# Where resolution breaks

Complaints are values, so without `raise` a run fails only for a conversion that cannot be made.
`Node.Breaks` tells where that happens in a `color-mod` call: in the seed, in the color of a mix, or
in what an adjuster does to the color that the adjusters before it lead to.

* `fails_firstOf_iff`, `fails_applyNode_iff`, `fails_resolveCall_iff`: one level of resolution.
* `fails_iff_breaks`: resolution fails just where it breaks.

Settings are checked for a cutoff that is in range (`Context.CutoffInRange`); one that is not is a
failure of its own and is left out here.
-/

namespace ColorMod

open Run

/-! ## What never fails -/

namespace Context

/-- The cutoff for suggestions is one that can be used. -/
def CutoffInRange (ctx : Context Float) : Prop :=
  ¬(Scalar.toSingle ctx.cutoff < 0 || 100 < Scalar.toSingle ctx.cutoff)

variable {ctx : Context Float}

theorem not_fails_hint (hcutoff : ctx.CutoffInRange) (name : String) (choices : List String) :
    ¬Fails (ctx.hint name choices) := by
  have hsuggest : ∃ hint, suggest name choices ctx.cutoff = .ok hint := by
    unfold suggest
    dsimp only
    split
    · exact ⟨_, rfl⟩
    · split
      · exact ⟨_, rfl⟩
      · rw [if_neg hcutoff]
        exact ⟨_, rfl⟩
  obtain ⟨hint, hhint⟩ := hsuggest
  have hok : (ctx.hint name choices).outcome = .ok hint := by
    rw [Context.hint, hhint]
    rfl
  exact not_fails_of_ok hok

theorem not_fails_reject (ctx : Context Float) {p : Policy} (hp : p ≠ .raise) (node : Node)
    (word : String) (complaint : Complaint) :
    ¬Fails ((ctx.under p).reject node word complaint) := by
  cases p with
  | raise => exact absurd rfl hp
  | ignore => exact not_fails_of_ok rfl
  | warn => exact not_fails_of_ok rfl

end Context

variable {ctx : Context Float} {args : List (Argument Float)} (node : Node)

theorem not_fails_resolveHex (ctx : Context Float) {p : Policy} (hp : p ≠ .raise) :
    ¬Fails (Component.resolveHex node (ctx.under p)) := by
  unfold Component.resolveHex
  split
  · exact not_fails_pure _
  · exact ctx.not_fails_reject hp _ _ _

theorem not_fails_unfit (hcutoff : ctx.CutoffInRange) (adjuster : Adjuster) (fullName : String) :
    ¬Fails (Adjuster.unfit node adjuster fullName args (ctx.under .warn)) := by
  simp only [Adjuster.unfit, Context.under_hint]
  split
  · exact not_fails_bind (Context.not_fails_hint hcutoff _ _) fun _ =>
      ctx.not_fails_reject (p := .warn) (by decide) _ _ _
  · exact ctx.not_fails_reject (p := .warn) (by decide) _ _ _

theorem not_fails_unknownName (hcutoff : ctx.CutoffInRange) (written fullName : String) :
    ¬Fails (Adjuster.unknownName written fullName (ctx.under .warn)) := by
  simp only [Adjuster.unknownName, Context.under_hint]
  split
  · exact not_fails_pure _
  · exact not_fails_bind (Context.not_fails_hint hcutoff _ _) fun _ => not_fails_pure _

/-! ## Patterns -/

/-- A component that is no color reads without a failure. -/
theorem not_fails_read {component : Component} (hcolor : component ≠ .color)
    (arg : Argument Float) : ¬Fails (component.read arg ctx.quiet) := by
  cases component with
  | color => exact absurd rfl hcolor
  | hexColor =>
    exact not_fails_bind (not_fails_resolveHex arg.node ctx (p := .ignore) (by decide))
      fun _ => not_fails_pure _
  | _ => exact not_fails_pure _

theorem not_fails_readAll {pattern : Pattern} (hcolor : .color ∉ pattern) :
    ¬Fails (Pattern.readAll ctx.quiet pattern args) := by
  induction pattern generalizing args with
  | nil => cases args <;> exact not_fails_pure _
  | cons component pattern ih =>
    rw [List.mem_cons, not_or] at hcolor
    cases args with
    | nil => exact not_fails_pure _
    | cons arg args =>
      refine not_fails_bind (not_fails_read (Ne.symm hcolor.1) arg) fun reading => ?_
      cases reading with
      | unfit => exact not_fails_pure _
      | separator => exact ih hcolor.2
      | found value => exact not_fails_bind (ih hcolor.2) fun _ => not_fails_pure _

theorem not_fails_firstOf {patterns : List Pattern} (hcolor : ∀ p ∈ patterns, .color ∉ p) :
    ¬Fails (Pattern.firstOf patterns args ctx) := by
  induction patterns with
  | nil => exact not_fails_pure _
  | cons pattern patterns ih =>
    obtain ⟨hpattern, hpatterns⟩ := List.forall_mem_cons.mp hcolor
    refine not_fails_bind ?_ fun values => ?_
    · unfold Pattern.matches?
      split
      · exact not_fails_readAll hpattern
      · exact not_fails_pure _
    · cases values with
      | none => exact ih hpatterns
      | some values => exact not_fails_pure _

/-- An adjuster with a color among its arguments. -/
def Adjuster.mixes : Adjuster → Bool
  | .blend | .blendAlpha => true
  | _ => false

theorem Adjuster.color_not_mem_patterns {adjuster : Adjuster} (h : ¬adjuster.mixes) :
    ∀ p ∈ adjuster.patterns, Component.color ∉ p := by
  cases adjuster with
  | blend => exact absurd rfl h
  | blendAlpha => exact absurd rfl h
  | channel ch => cases ch <;> decide
  | _ => decide

theorem Adjuster.patterns_of_mixes {adjuster : Adjuster} (h : adjuster.mixes) :
    adjuster.patterns = [[.color, .percentage, .colorSpace], [.color, .percentage]] := by
  cases adjuster with
  | blend => rfl
  | blendAlpha => rfl
  | _ => cases h

/-- A pattern that starts with a color fails just when its first argument does as a color. -/
theorem fails_readAll_color_iff {arg : Argument Float} (harg : arg.Agree) {pattern : Pattern}
    (hcolor : .color ∉ pattern) :
    Fails (Pattern.readAll ctx.quiet (.color :: pattern) (arg :: args)) ↔
      Fails (arg.color (ctx.descend.under .warn)) := by
  have hpolicy : (arg.color ctx.quiet.descend).outcome =
      (arg.color (ctx.descend.under .warn)).outcome := (harg.color ctx.descend).outcome_eq
  have hread : Fails (Component.read .color arg ctx.quiet) ↔
      Fails (arg.color (ctx.descend.under .warn)) := by
    refine (fails_bind_iff_left fun _ => not_fails_pure _).trans ?_
    rw [Fails, Fails, hpolicy]
  refine (fails_bind_iff_left fun reading => ?_).trans hread
  cases reading with
  | unfit => exact not_fails_pure _
  | separator => exact not_fails_readAll hcolor
  | found value => exact not_fails_bind (not_fails_readAll hcolor) fun _ => not_fails_pure _

theorem fails_firstOf_cons_iff {pattern : Pattern} {patterns : List Pattern} :
    Fails (Pattern.firstOf (pattern :: patterns) args ctx) ↔
      Fails (pattern.matches? args ctx.quiet) ∨
        (pattern.matches? args ctx.quiet).outcome = .ok none ∧
          Fails (Pattern.firstOf patterns args ctx) := by
  refine fails_bind_iff.trans (or_congr_right ⟨?_, fun ⟨hnone, h⟩ => ⟨none, hnone, h⟩⟩)
  rintro ⟨values, hvalues, h⟩
  cases values with
  | none => exact ⟨hvalues, h⟩
  | some values => exact (not_fails_pure _ h).elim

/-- A pattern that starts with a color fails for as many arguments as it has, when the first of
them does as a color. -/
theorem fails_matches_color_iff {pattern : Pattern} (hcolor : .color ∉ pattern)
    (hargs : ∀ arg ∈ args, arg.Agree) :
    Fails (Pattern.matches? (.color :: pattern) args ctx.quiet) ↔
      ∃ first rest, args = first :: rest ∧ rest.length = pattern.length ∧
        Fails (first.color (ctx.descend.under .warn)) := by
  unfold Pattern.matches?
  cases args with
  | nil => exact ⟨fun h => (not_fails_pure _ h).elim, fun ⟨_, _, h, _⟩ => (by cases h)⟩
  | cons first rest =>
    simp only [List.length_cons, Nat.add_right_cancel_iff]
    split
    · next hlength =>
      rw [fails_readAll_color_iff (hargs first List.mem_cons_self) hcolor]
      constructor
      · intro h
        exact ⟨first, rest, rfl, hlength, h⟩
      · rintro ⟨_, _, hcons, -, h⟩
        cases hcons
        exact h
    · next hlength =>
      constructor
      · intro h
        exact (not_fails_pure _ h).elim
      · rintro ⟨_, _, hcons, h, -⟩
        cases hcons
        exact absurd h hlength

/-- The arguments of an adjuster are read without a failure, but for the color of a mix. -/
theorem fails_firstOf_iff {adjuster : Adjuster} (hargs : ∀ arg ∈ args, arg.Agree) :
    Fails (Pattern.firstOf adjuster.patterns args ctx) ↔
      adjuster.mixes ∧ ∃ first rest, args = first :: rest ∧ (rest.length = 1 ∨ rest.length = 2) ∧
        Fails (first.color (ctx.descend.under .warn)) := by
  by_cases hmixes : adjuster.mixes
  · rw [Adjuster.patterns_of_mixes hmixes, fails_firstOf_cons_iff, fails_firstOf_cons_iff,
      fails_matches_color_iff (by decide) hargs, fails_matches_color_iff (by decide) hargs]
    constructor
    · rintro (⟨first, rest, rfl, hlength, h⟩ | ⟨-, ⟨first, rest, rfl, hlength, h⟩ | ⟨-, h⟩⟩)
      · exact ⟨hmixes, first, rest, rfl, .inr hlength, h⟩
      · exact ⟨hmixes, first, rest, rfl, .inl hlength, h⟩
      · exact (not_fails_pure _ h).elim
    · rintro ⟨-, first, rest, rfl, hlength, h⟩
      rcases hlength with hlength | hlength
      · -- two arguments are too few for the longer form
        refine .inr ⟨?_, .inl ⟨first, rest, rfl, hlength, h⟩⟩
        unfold Pattern.matches?
        rw [if_neg (by simp [hlength])]
        rfl
      · exact .inl ⟨first, rest, rfl, hlength, h⟩
  · refine ⟨fun h => ?_, fun h => absurd h.1 hmixes⟩
    exact absurd h (not_fails_firstOf (Adjuster.color_not_mem_patterns hmixes))

/-! ## Adjusters and colors -/

/-- An adjuster fails where the color in its arguments does, or where it makes a conversion that
cannot be made. -/
theorem fails_applyNode_iff (hcutoff : ctx.CutoffInRange) (c : Color Float) :
    Fails (Adjuster.applyNode node args c (ctx.under .warn)) ↔
      node.isFunction ∧ ∃ adjuster, Adjuster.ofName? (Adjuster.fullName node.value) = some adjuster ∧
        (Fails (Pattern.firstOf adjuster.patterns args ctx) ∨
          ∃ values, (Pattern.firstOf adjuster.patterns args ctx).outcome = .ok (some values) ∧
            ¬adjuster.Computes c values) := by
  unfold Adjuster.applyNode
  by_cases hfun : node.isFunction
  · rw [if_pos hfun]
    dsimp only
    cases hname : Adjuster.ofName? (Adjuster.fullName node.value) with
    | none =>
      refine ⟨fun h => ?_, fun ⟨_, _, hsome, _⟩ => (by cases hsome)⟩
      exact absurd h <| not_fails_bind (not_fails_unknownName hcutoff _ _) fun _ =>
        ctx.not_fails_reject (p := .warn) (by decide) _ _ _
    | some adjuster =>
      dsimp only
      rw [fails_bind_iff, Pattern.firstOf_under]
      constructor
      · rintro (h | ⟨values, hvalues, h⟩)
        · exact ⟨hfun, adjuster, rfl, .inl h⟩
        · cases values with
          | none => exact absurd h (not_fails_unfit node hcutoff _ _)
          | some values =>
            refine ⟨hfun, adjuster, rfl, .inr ⟨values, hvalues, ?_⟩⟩
            rw [← Adjuster.change_isOk_iff, ← fails_ofArithmetic_iff (α := Float)]
            rcases fails_bind_iff.mp h with h | ⟨changed, -, h⟩
            · exact h
            · cases changed with
              | none => exact absurd h (not_fails_unfit node hcutoff _ _)
              | some adjusted => exact (not_fails_pure _ h).elim
      · rintro ⟨-, _, hsome, h⟩
        cases hsome
        rcases h with h | ⟨values, hvalues, h⟩
        · exact .inl h
        · refine .inr ⟨some values, hvalues, fails_bind_iff.mpr (.inl ?_)⟩
          rw [fails_ofArithmetic_iff, Adjuster.change_isOk_iff]
          exact h
  · rw [if_neg hfun]
    refine ⟨fun h => ?_, fun h => absurd h.1 hfun⟩
    exact absurd h (ctx.not_fails_reject (p := .warn) (by decide) _ _ _)

/-- A call fails where its seed does, or where its adjusters do. -/
theorem fails_resolveCall_iff :
    Fails (resolveCall node args (ctx.under .warn)) ↔
      ¬ctx.tooDeep ∧ ∃ seed adjusters, args = seed :: adjusters ∧
        (Fails (resolveSeed seed (ctx.descend.under .warn)) ∨
          ∃ c, (resolveSeed seed (ctx.descend.under .warn)).outcome = .ok (.ok c) ∧
            Fails (Adjuster.applyAll (ctx.descend.under .warn) c adjusters)) := by
  unfold resolveCall
  rw [Context.under_tooDeep, Context.under_descend]
  by_cases hdepth : ctx.tooDeep = true
  · rw [if_pos hdepth]
    refine ⟨fun h => ?_, fun h => absurd hdepth h.1⟩
    exact absurd h (ctx.not_fails_reject (p := .warn) (by decide) _ _ _)
  · rw [if_neg hdepth]
    cases args with
    | nil =>
      refine ⟨fun h => ?_, fun ⟨_, _, _, hnil, _⟩ => (by cases hnil)⟩
      exact absurd h (ctx.not_fails_reject (p := .warn) (by decide) _ _ _)
    | cons seed adjusters =>
      dsimp only
      rw [fails_bind_iff]
      constructor
      · rintro (h | ⟨resolved, hresolved, h⟩)
        · exact ⟨hdepth, seed, adjusters, rfl, .inl h⟩
        · cases resolved with
          | error u => exact absurd h (ctx.not_fails_reject (p := .warn) (by decide) _ _ _)
          | ok c =>
            refine ⟨hdepth, seed, adjusters, rfl, .inr ⟨c, hresolved, ?_⟩⟩
            rcases fails_bind_iff.mp h with h | ⟨_, -, h⟩
            · exact (not_fails_of_ok rfl h).elim
            · rcases fails_bind_iff.mp h with h | ⟨_, -, h⟩
              · exact h
              · exact (not_fails_pure _ h).elim
      · rintro ⟨-, _, _, hcons, h⟩
        cases hcons
        rcases h with h | ⟨c, hresolved, h⟩
        · exact .inl h
        · refine .inr ⟨.ok c, hresolved, ?_⟩
          exact fails_bind_iff.mpr (.inr ⟨(), rfl, fails_bind_iff.mpr (.inl h)⟩)

/-- A color other than a call does not fail. -/
theorem not_fails_resolveNode (hcall : ¬node.isCall) :
    ¬Fails (resolveNode node args (ctx.under .warn)) := by
  have hfunction : ∀ space : ColorSpace,
      ¬Fails (resolveFunction space node args (ctx.under .warn)) := by
    intro space
    refine not_fails_bind (not_fails_firstOf (by cases space <;> decide)) fun values => ?_
    split
    · exact not_fails_pure _
    · exact ctx.not_fails_reject (p := .warn) (by decide) _ _ _
  unfold resolveNode
  split
  · exact ctx.not_fails_reject (p := .warn) (by decide) _ _ _
  · split
    · next hkind =>
      have hname : node.name ≠ colorModName := fun h => hcall ((Node.isCall_iff node).mpr ⟨hkind, h⟩)
      rw [resolveNamedFunction, if_neg hname]
      repeat' split
      · exact hfunction .rgb
      · exact hfunction .hsl
      · exact hfunction .hwb
      · exact ctx.not_fails_reject (p := .warn) (by decide) _ _ _
    · unfold resolveWord
      split
      · exact not_fails_resolveHex node ctx (p := .warn) (by decide)
      · split
        · exact not_fails_pure _
        · exact ctx.not_fails_reject (p := .warn) (by decide) _ _ _
    · exact ctx.not_fails_reject (p := .warn) (by decide) _ _ _

/-! ## Nodes -/

mutual

/-- Resolving the node as a color comes to a conversion that cannot be made: in the seed of the
call, or in an adjuster of the color that the seed and the adjusters before lead to. -/
inductive Node.Breaks : Context Float → Node → Prop where
  | seed {ctx n seed adjusters} : n.isCall → ¬ctx.tooDeep → n.arguments = seed :: adjusters →
      Node.Breaks ctx.descend seed → Breaks ctx n
  | adjuster {ctx n seed before a after c₀ us₀ c us} : n.isCall → ¬ctx.tooDeep →
      n.arguments = seed :: (before ++ a :: after) → Node.Seeds ctx.descend seed c₀ us₀ →
      Adjusted ctx.descend c₀ before c us → Node.AdjusterBreaks ctx.descend a c → Breaks ctx n

/-- Applying the node as an adjuster comes to a conversion that cannot be made: in the color of a
mix, or in what the adjuster does with its values. -/
inductive Node.AdjusterBreaks : Context Float → Node → Color Float → Prop where
  | color {ctx a c adjuster first rest} : a.isFunction →
      Adjuster.ofName? (Adjuster.fullName a.value) = some adjuster → adjuster.mixes →
      a.arguments = first :: rest → rest.length = 1 ∨ rest.length = 2 →
      Node.Breaks ctx.descend first → AdjusterBreaks ctx a c
  | change {ctx a c adjuster values} : a.isFunction →
      Adjuster.ofName? (Adjuster.fullName a.value) = some adjuster →
      (Pattern.firstOf adjuster.patterns (argumentMeanings a) ctx).outcome = .ok (some values) →
      ¬adjuster.Computes c values → AdjusterBreaks ctx a c

end

/-- Only a call breaks. -/
theorem Node.Breaks.isCall {n : Node} (h : n.Breaks ctx) : n.isCall := by
  cases h with
  | seed hcall => exact hcall
  | adjuster hcall => exact hcall

/-- Adjusters fail where one of them does, on the color that the ones before lead to. -/
theorem fails_applyAdjusters_iff {nodes : List Node} {c : Color Float} :
    Fails (applyAdjusters c nodes (ctx.under .warn)) ↔
      ∃ before a after c' us, nodes = before ++ a :: after ∧ Adjusted ctx c before c' us ∧
        Fails (applyAdjuster c' a (ctx.under .warn)) := by
  induction nodes generalizing c with
  | nil =>
    refine ⟨fun h => (not_fails_pure _ h).elim, ?_⟩
    rintro ⟨before, a, after, _, _, hnil, -⟩
    simp at hnil
  | cons n ns ih =>
    refine fails_bind_iff.trans ⟨?_, ?_⟩
    · rintro (h | ⟨resolved, hresolved, h⟩)
      · exact ⟨[], n, ns, c, [], rfl, .done, h⟩
      · cases resolved with
        | ok c₁ =>
          have hadjusts := (returns_applyAdjuster_ok_iff.mp ⟨hresolved, rfl⟩).1
          obtain ⟨before, a, after, c', us, rfl, hbefore, ha⟩ := ih.mp (fails_tell_bind_iff.mp h)
          exact ⟨n :: before, a, after, c', us, rfl, .applied hadjusts hbefore, ha⟩
        | error u =>
          have hrefuses := (returns_applyAdjuster_error_iff.mp ⟨hresolved, rfl⟩).1
          obtain ⟨before, a, after, c', us, rfl, hbefore, ha⟩ := ih.mp (fails_tell_bind_iff.mp h)
          exact ⟨n :: before, a, after, c', u :: us, rfl, .skipped hrefuses hbefore, ha⟩
    · rintro ⟨before, a, after, c', us, hnodes, hadjusted, h⟩
      cases hadjusted with
      | done =>
        rw [List.nil_append, List.cons.injEq] at hnodes
        obtain ⟨rfl, rfl⟩ := hnodes
        exact .inl h
      | applied hadjusts hrest =>
        rw [List.cons_append, List.cons.injEq] at hnodes
        obtain ⟨rfl, rfl⟩ := hnodes
        have hok := (returns_applyAdjuster_ok_iff.mpr ⟨hadjusts, rfl⟩).outcome_eq
        exact .inr ⟨.ok _, hok, fails_tell_bind_iff.mpr (ih.mpr ⟨_, a, after, c', us, rfl, hrest, h⟩)⟩
      | skipped hrefuses hrest =>
        rw [List.cons_append, List.cons.injEq] at hnodes
        obtain ⟨rfl, rfl⟩ := hnodes
        have herror := (returns_applyAdjuster_error_iff.mpr ⟨hrefuses, rfl⟩).outcome_eq
        exact .inr ⟨.error _, herror,
          fails_tell_bind_iff.mpr (ih.mpr ⟨_, a, after, c', _, rfl, hrest, h⟩)⟩

/-- A seed fails as a call only. -/
theorem fails_resolveSeed_iff {seed : Node} :
    Fails (resolveSeed (meaning seed) (ctx.under .warn)) ↔
      seed.isCall ∧ Fails (resolveColor seed (ctx.under .warn)) := by
  rw [resolveSeed, meaning_node]
  by_cases hcall : seed.isCall
  · rw [if_neg (Node.not_isHue_of_isCall hcall)]
    exact (and_iff_right hcall).symm
  · refine ⟨fun h => absurd h ?_, fun h => absurd h.1 hcall⟩
    split
    · split
      · exact not_fails_pure _
      · exact ctx.not_fails_reject (p := .warn) (by decide) _ _ _
    · change ¬Fails (resolveColor seed (ctx.under .warn))
      rw [resolveColor_eq]
      exact not_fails_resolveNode seed hcall

/-- A call fails in its seed or in one of its adjusters. -/
theorem fails_resolveColorMod_iff {n : Node} :
    Fails (resolveColorMod n (ctx.under .warn)) ↔
      ¬ctx.tooDeep ∧ ∃ seed adjusters, n.arguments = seed :: adjusters ∧
        (seed.isCall ∧ Fails (resolveColor seed (ctx.descend.under .warn)) ∨
          ∃ c₀ us₀, seed.Seeds ctx.descend c₀ us₀ ∧
            Fails (applyAdjusters c₀ adjusters (ctx.descend.under .warn))) := by
  have hseeds : ∀ (seed : Node) (c : Color Float),
      (resolveSeed (meaning seed) (ctx.descend.under .warn)).outcome = .ok (.ok c) ↔
        ∃ us, seed.Seeds ctx.descend c us := by
    intro seed c
    have hiff : ∀ ds, Returns (resolveSeed (meaning seed) (ctx.descend.under .warn)) (.ok c) ds ↔
        ∃ us, seed.Seeds ctx.descend c us ∧ ds = us.map Unresolved.toDiagnostic := fun ds =>
      returns_resolveSeed_iff (returns_resolveColorMod_iff seed ctx.descend)
    constructor
    · intro h
      obtain ⟨us, hus, -⟩ := (hiff _).mp ⟨h, rfl⟩
      exact ⟨us, hus⟩
    · rintro ⟨us, hus⟩
      exact ((hiff _).mpr ⟨us, hus, rfl⟩).outcome_eq
  rw [resolveColorMod_eq, fails_resolveCall_iff]
  refine and_congr_right fun hdepth => ?_
  constructor
  · rintro ⟨_, _, hargs, h⟩
    obtain ⟨seed, adjusters, hn, rfl, rfl⟩ := List.map_eq_cons_iff.mp hargs
    refine ⟨seed, adjusters, hn, ?_⟩
    rcases h with h | ⟨c₀, hc₀, h⟩
    · exact .inl (fails_resolveSeed_iff.mp h)
    · obtain ⟨us₀, hseed⟩ := (hseeds seed c₀).mp hc₀
      rw [← meanings_eq_map] at h
      exact .inr ⟨c₀, us₀, hseed, h⟩
  · rintro ⟨seed, adjusters, hn, h⟩
    refine ⟨meaning seed, adjusters.map meaning, by rw [hn, List.map_cons], ?_⟩
    rcases h with h | ⟨c₀, us₀, hseed, h⟩
    · exact .inl (fails_resolveSeed_iff.mpr h)
    · rw [applyAdjusters, meanings_eq_map] at h
      exact .inr ⟨c₀, (hseeds seed c₀).mpr ⟨us₀, hseed⟩, h⟩

section

variable {n : Node}

/-- A node breaks as a color when an argument does, as a seed or as an adjuster. -/
theorem fails_resolveColor_iff
    (hseeds : ∀ m ∈ n.arguments,
      (Fails (resolveColor m (ctx.descend.under .warn)) ↔ m.Breaks ctx.descend))
    (hadjusters : ∀ m ∈ n.arguments, ∀ c,
      (Fails (applyAdjuster c m (ctx.descend.under .warn)) ↔ m.AdjusterBreaks ctx.descend c)) :
    Fails (resolveColor n (ctx.under .warn)) ↔ n.Breaks ctx := by
  by_cases hcall : n.isCall
  · rw [resolveColor_of_isCall n _ hcall, fails_resolveColorMod_iff]
    constructor
    · rintro ⟨hdepth, seed, adjusters, hn, h⟩
      rcases h with ⟨-, h⟩ | ⟨c₀, us₀, hseed, h⟩
      · exact .seed hcall hdepth hn ((hseeds seed (hn ▸ List.mem_cons_self)).mp h)
      · obtain ⟨before, a, after, c, us, rfl, hbefore, h⟩ := fails_applyAdjusters_iff.mp h
        have hmem : a ∈ n.arguments := by rw [hn]; simp
        exact .adjuster hcall hdepth hn hseed hbefore ((hadjusters a hmem c).mp h)
    · intro hbreaks
      cases hbreaks with
      | seed _ hdepth hn hseed =>
        have hfails := (hseeds _ (hn ▸ List.mem_cons_self)).mpr hseed
        exact ⟨hdepth, _, _, hn, .inl ⟨hseed.isCall, hfails⟩⟩
      | @adjuster _ _ _ _ a _ _ _ _ _ _ hdepth hn hseed hbefore ha =>
        have hmem : a ∈ n.arguments := by rw [hn]; simp
        have hfails := (hadjusters a hmem _).mpr ha
        refine ⟨hdepth, _, _, hn, .inr ⟨_, _, hseed, ?_⟩⟩
        exact fails_applyAdjusters_iff.mpr ⟨_, a, _, _, _, rfl, hbefore, hfails⟩
  · refine ⟨fun h => ?_, fun h => absurd h.isCall hcall⟩
    rw [resolveColor_eq] at h
    exact absurd h (not_fails_resolveNode n hcall)

/-- A node breaks as an adjuster when the color of a mix does, or by what it does itself. -/
theorem fails_applyAdjuster_iff {c : Color Float} (hcutoff : ctx.CutoffInRange)
    (hcolors : ∀ m ∈ n.arguments,
      (Fails (resolveColor m (ctx.descend.under .warn)) ↔ m.Breaks ctx.descend)) :
    Fails (applyAdjuster c n (ctx.under .warn)) ↔ n.AdjusterBreaks ctx c := by
  have hargs : ∀ arg ∈ (argumentMeanings n : List (Argument Float)), arg.Agree := by
    rw [argumentMeanings_eq]
    exact arguments_agree n
  rw [applyAdjuster_eq, ← argumentMeanings_eq, fails_applyNode_iff n hcutoff]
  simp only [fails_firstOf_iff hargs]
  constructor
  · rintro ⟨hfun, adjuster, hname, ⟨hmixes, first, rest, hargs, hlength, h⟩ | ⟨values, hvalues, h⟩⟩
    · rw [argumentMeanings_eq] at hargs
      obtain ⟨first, rest, hn, rfl, rfl⟩ := List.map_eq_cons_iff.mp hargs
      rw [List.length_map] at hlength
      have hbreaks := (hcolors first (hn ▸ List.mem_cons_self)).mp h
      exact .color hfun hname hmixes hn hlength hbreaks
    · exact .change hfun hname hvalues h
  · intro hbreaks
    cases hbreaks with
    | @color _ _ _ _ first rest hfun hname hmixes hn hlength hfirst =>
      have hfails := (hcolors first (hn ▸ List.mem_cons_self)).mpr hfirst
      refine ⟨hfun, _, hname, .inl ⟨hmixes, meaning first, rest.map meaning, ?_, ?_, hfails⟩⟩
      · rw [argumentMeanings_eq, hn, List.map_cons]
      · rwa [List.length_map]
    | change hfun hname hvalues hcomputes =>
      exact ⟨hfun, _, hname, .inr ⟨_, hvalues, hcomputes⟩⟩

end

/-- Resolution comes to a failure just where it breaks. -/
theorem fails_iff_breaks (n : Node) :
    ∀ ctx : Context Float, ctx.CutoffInRange →
      (Fails (resolveColor n (ctx.under .warn)) ↔ n.Breaks ctx) ∧
      ∀ c, (Fails (applyAdjuster c n (ctx.under .warn)) ↔ n.AdjusterBreaks ctx c) := by
  induction n using Node.induction_on_arguments with
  | step n ih =>
    intro ctx hcutoff
    -- to go down changes the depth only, so the cutoff stays in range
    have hcutoff' : ctx.descend.CutoffInRange := hcutoff
    have hcolors := fun m hm => (ih m hm ctx.descend hcutoff').1
    have hadjusters := fun m hm => (ih m hm ctx.descend hcutoff').2
    exact ⟨fails_resolveColor_iff hcolors hadjusters,
      fun c => fails_applyAdjuster_iff hcutoff hcolors⟩

end ColorMod
