import ColorMod.Proofs.Breaks
import ColorMod.Proofs.PolicyWalks
import ColorMod.Stylesheet

/-!
# Where a transformation fails

A walk comes to the calls of a tree one after the other (`Node.callsReached`), and only a call can
make it fail: one that breaks, or one whose color cannot be converted for its format
(`Node.Faults`).  As long as there is no such call the walk goes on, and every call that it comes to
gives way to its color or stays (`Node.GivesWay`).

* `fails_walk_iff`, `result_walk_of_not_fails`: both for the walk over a tree.
* `transform_fails_iff`: both for a value with its variables replaced.
-/

namespace ColorMod

open Run

/-! ## Calls that a walk comes to -/

namespace Node

mutual

/-- The calls that a walk comes to, with the contexts in which it does. -/
def callsReached : Node → Context Float → List (Node × Context Float)
  | leaf _, _ => []
  | branch _ cs, ctx => if ctx.tooDeep then [] else callsReachedAmong cs ctx

def callsReachedAmong : List Node → Context Float → List (Node × Context Float)
  | [], _ => []
  | c :: cs, ctx =>
    (if c.isCall then [(c, ctx)] else callsReached c ctx.descend) ++ callsReachedAmong cs ctx

end

mutual

/-- The tree with each call that a walk comes to changed by `f`. -/
def mapReached (f : Node → Context Float → Node) : Node → Context Float → Node
  | leaf h, _ => leaf h
  | branch h cs, ctx => if ctx.tooDeep then branch h cs else branch h (mapReachedAmong f cs ctx)

def mapReachedAmong (f : Node → Context Float → Node) : List Node → Context Float → List Node
  | [], _ => []
  | c :: cs, ctx =>
    (if c.isCall then f c ctx else mapReached f c ctx.descend) :: mapReachedAmong f cs ctx

end

section

variable {ctx : Context Float}

theorem callsReached_of_tooDeep (n : Node) (hdeep : ctx.tooDeep) :
    n.callsReached ctx = [] := by
  cases n with
  | leaf head => rfl
  | branch head cs => rw [callsReached, if_pos hdeep]

theorem callsReached_of_isEmpty {n : Node} (h : n.children.isEmpty) :
    n.callsReached ctx = [] := by
  cases n with
  | leaf head => rfl
  | branch head cs =>
    have hnil : cs = [] := List.isEmpty_iff.mp h
    simp [hnil, callsReached, callsReachedAmong]

theorem mapReached_of_tooDeep (f : Node → Context Float → Node) (n : Node) (hdeep : ctx.tooDeep) :
    n.mapReached f ctx = n := by
  cases n with
  | leaf head => rfl
  | branch head cs => rw [mapReached, if_pos hdeep]

theorem mapReached_of_isEmpty (f : Node → Context Float → Node) {n : Node}
    (h : n.children.isEmpty) : n.mapReached f ctx = n := by
  cases n with
  | leaf head => rfl
  | branch head cs =>
    have hnil : cs = [] := List.isEmpty_iff.mp h
    simp [hnil, mapReached, mapReachedAmong]

end

mutual

/-- What a walk comes to are calls, and on the way only the depth changes. -/
theorem of_mem_callsReached {r : Node × Context Float} : ∀ {n : Node} {ctx : Context Float},
    r ∈ n.callsReached ctx → r.1.isCall ∧ r.2.cutoff = ctx.cutoff
  | .leaf _, _, hr => by cases hr
  | .branch _ cs, ctx, hr => by
    rw [callsReached] at hr
    split at hr
    · cases hr
    · exact of_mem_callsReachedAmong hr

theorem of_mem_callsReachedAmong {r : Node × Context Float} :
    ∀ {ns : List Node} {ctx : Context Float},
      r ∈ callsReachedAmong ns ctx → r.1.isCall ∧ r.2.cutoff = ctx.cutoff
  | [], _, hr => by cases hr
  | c :: cs, ctx, hr => by
    rw [callsReachedAmong, List.mem_append] at hr
    rcases hr with hr | hr
    · split at hr
      · next hcall =>
        cases List.mem_singleton.mp hr
        exact ⟨hcall, rfl⟩
      · have hbelow := of_mem_callsReached hr
        exact ⟨hbelow.1, hbelow.2⟩
    · exact of_mem_callsReachedAmong hr

end

/-- Resolving the call breaks, or the color that it resolves to cannot be converted to the space
that the format writes. -/
def Faults (ctx : Context Float) (call : Node) : Prop :=
  call.Breaks ctx ∨ ∃ c us, call.Resolves ctx c us ∧ ¬c.Converts (ctx.format.spaceOf c)

/-- What a call turns into: the text of the color that it resolves to, or itself for no color. -/
def GivesWay (ctx : Context Float) (call m : Node) : Prop :=
  (∃ c us text, call.Resolves ctx c us ∧ c.toCss ctx.format = .ok text ∧ m = .word text) ∨
    (∀ c us, ¬call.Resolves ctx c us) ∧ m = call

end Node

/-! ## Calls one by one -/

section

variable {ctx : Context Float} {call : Node}

theorem exists_resolves_iff {c : Color Float} :
    (resolveColorMod call (ctx.under .warn)).outcome = .ok (.ok c) ↔
      ∃ us, call.Resolves ctx c us := by
  constructor
  · intro h
    obtain ⟨us, hus, -⟩ := (returns_resolveColorMod_iff call ctx c _).mp ⟨h, rfl⟩
    exact ⟨us, hus⟩
  · rintro ⟨us, hus⟩
    exact ((returns_resolveColorMod_iff call ctx c _).mpr ⟨us, hus, rfl⟩).outcome_eq

theorem fails_replaceCall_iff (hcutoff : ctx.CutoffInRange) (hcall : call.isCall) :
    Fails (replaceCall call (ctx.under .warn)) ↔ call.Faults ctx := by
  have hbreaks : Fails (resolveColorMod call (ctx.under .warn)) ↔ call.Breaks ctx := by
    rw [← resolveColor_of_isCall call _ hcall]
    exact (fails_iff_breaks call ctx hcutoff).1
  refine fails_bind_iff.trans (or_congr hbreaks ?_)
  constructor
  · rintro ⟨resolved, hresolved, h⟩
    cases resolved with
    | error u => exact absurd h (not_fails_pure _)
    | ok c =>
      obtain ⟨us, hus⟩ := exists_resolves_iff.mp hresolved
      refine ⟨c, us, hus, ?_⟩
      rw [← c.toCss_isOk_iff, ← fails_ofArithmetic_iff (α := Float)]
      rcases fails_bind_iff.mp h with h | ⟨text, -, h⟩
      · exact h
      · exact absurd (fails_tell_bind_iff.mp h) (not_fails_pure _)
  · rintro ⟨c, us, hus, hconverts⟩
    refine ⟨.ok c, exists_resolves_iff.mpr ⟨us, hus⟩, fails_bind_iff.mpr (.inl ?_)⟩
    rw [fails_ofArithmetic_iff, c.toCss_isOk_iff]
    exact hconverts

/-- A call that is replaced without a failure turns into its color or stays. -/
theorem givesWay_of_replaceCall {m : Node}
    (h : (replaceCall call (ctx.under .warn)).outcome = .ok m) : call.GivesWay ctx m := by
  cases replaces_of_replaceCall h with
  | color hcolor htext =>
    obtain ⟨us, hus⟩ := exists_resolves_iff.mp hcolor
    exact .inl ⟨_, us, _, hus, htext, rfl⟩
  | noColor hcolor =>
    refine .inr ⟨fun c us hus => ?_, rfl⟩
    have hok := exists_resolves_iff.mpr ⟨us, hus⟩
    rw [hcolor] at hok
    cases hok

theorem fails_walkCall_iff : Fails (walkCall call ctx).run ↔ Fails (replaceCall call ctx) :=
  fails_bind_iff_left fun _ => not_fails_pure _

theorem givesWay_walkCall (h : ¬Fails (replaceCall call (ctx.under .warn))) :
    call.GivesWay ctx (walkCall call (ctx.under .warn)).result := by
  obtain ⟨m, hm⟩ := (fails_or_ok _).resolve_left h
  rw [walkCall, hm]
  exact givesWay_of_replaceCall hm

end

/-! ## Walks -/

/-- A walk over things fails in the first, or in the others when the first comes to its end. -/
theorem Walked.fails_cons_iff {β : Type} {first : Walked Float β} {others : List β}
    {rest : Unit → Walked Float (List β)} :
    Fails (first.cons others rest).run ↔ Fails first.run ∨ Fails (rest ()).run := by
  rw [Walked.cons_run, fails_bind_iff]
  constructor
  · rintro (h | ⟨_, -, h⟩)
    · exact .inl h
    · exact .inr h
  · rintro (h | h)
    · exact .inl h
    · rcases fails_or_ok first.run with hfirst | ⟨u, hu⟩
      · exact .inl hfirst
      · exact .inr ⟨u, hu, h⟩

mutual

/-- A walk fails where one of the calls that it comes to does. -/
theorem fails_walk_iff : ∀ (n : Node) (ctx : Context Float),
    Fails (walk n (ctx.under .warn)).run ↔
      ∃ r ∈ n.callsReached ctx, Fails (replaceCall r.1 (r.2.under .warn))
  | n, ctx => by
    by_cases hdeep : ctx.tooDeep = true
    · rw [walk_of_tooDeep (ctx.under .warn) n hdeep, Node.callsReached_of_tooDeep n hdeep]
      refine ⟨fun h => absurd h ?_, fun ⟨_, hr, _⟩ => (by cases hr)⟩
      exact not_fails_bind (not_fails_of_ok rfl) fun _ => not_fails_pure _
    · cases n with
      | leaf h =>
        rw [walk_leaf (ctx.under .warn) h hdeep]
        exact ⟨fun h => absurd h (not_fails_pure _), fun ⟨_, hr, _⟩ => (by cases hr)⟩
      | branch h cs =>
        rw [walk_branch (ctx.under .warn) h cs hdeep, Node.callsReached, if_neg hdeep]
        exact fails_walkAll_iff cs ctx

theorem fails_walkAll_iff : ∀ (ns : List Node) (ctx : Context Float),
    Fails (walkAll ns (ctx.under .warn)).run ↔
      ∃ r ∈ Node.callsReachedAmong ns ctx, Fails (replaceCall r.1 (r.2.under .warn))
  | [], ctx => ⟨fun h => absurd h (not_fails_pure _), fun ⟨_, hr, _⟩ => (by cases hr)⟩
  | c :: cs, ctx => by
    simp only [walkAll, Node.callsReachedAmong, List.mem_append, or_and_right, exists_or,
      Walked.fails_cons_iff, fails_walkAll_iff cs ctx, Context.under_descend]
    refine or_congr_left ?_
    by_cases hcall : c.isCall = true
    · simp only [if_pos hcall, List.mem_singleton, exists_eq_left]
      exact fails_walkCall_iff
    · simp only [if_neg hcall]
      by_cases hleaf : c.children.isEmpty = true
      · simp only [if_pos hleaf, Node.callsReached_of_isEmpty hleaf, List.not_mem_nil, false_and,
          exists_false, iff_false]
        exact not_fails_pure _
      · simp only [if_neg hleaf]
        exact fails_walk_iff c ctx.descend

end

/-- The node that a walk under `warn` leaves in the place of a call. -/
def replacement (call : Node) (ctx : Context Float) : Node :=
  (walkCall call (ctx.under .warn)).result

mutual

/-- A walk that does not fail replaces every call that it comes to. -/
theorem result_walk_of_not_fails : ∀ (n : Node) (ctx : Context Float),
    ¬Fails (walk n (ctx.under .warn)).run →
      (walk n (ctx.under .warn)).result = n.mapReached replacement ctx
  | n, ctx, h => by
    by_cases hdeep : ctx.tooDeep = true
    · rw [walk_of_tooDeep (ctx.under .warn) n hdeep, Node.mapReached_of_tooDeep _ n hdeep]
    · cases n with
      | leaf head => rw [walk_leaf (ctx.under .warn) head hdeep, Node.mapReached]
      | branch head cs =>
        rw [walk_branch (ctx.under .warn) head cs hdeep] at h ⊢
        rw [Node.mapReached, if_neg hdeep, ← result_walkAll_of_not_fails cs ctx h]

theorem result_walkAll_of_not_fails : ∀ (ns : List Node) (ctx : Context Float),
    ¬Fails (walkAll ns (ctx.under .warn)).run →
      (walkAll ns (ctx.under .warn)).result = Node.mapReachedAmong replacement ns ctx
  | [], ctx, _ => rfl
  | c :: cs, ctx, h => by
    simp only [walkAll, Walked.fails_cons_iff, not_or, Context.under_descend] at h
    obtain ⟨hfirst, hrest⟩ := h
    obtain ⟨u, hu⟩ := (fails_or_ok _).resolve_left hfirst
    simp only [walkAll, Context.under_descend]
    rw [Walked.cons_result_of_ok hu, result_walkAll_of_not_fails cs ctx hrest, Node.mapReachedAmong]
    refine congrArg (· :: _) ?_
    by_cases hcall : c.isCall = true
    · simp only [if_pos hcall]
      rfl
    · simp only [if_neg hcall] at hfirst ⊢
      by_cases hleaf : c.children.isEmpty = true
      · rw [if_pos hleaf, Node.mapReached_of_isEmpty _ hleaf]
      · simp only [if_neg hleaf] at hfirst ⊢
        exact result_walk_of_not_fails c ctx.descend hfirst

end

/-! ## Values -/

/-- Unless complaints are raised, a transformation fails just when it comes to a call that breaks or
whose color cannot be converted for the format.  Else every call that it comes to gives way to the
text of its color, or stays. -/
theorem transform_fails_iff (tree : Node) (ctx : Context Float) (props : Properties)
    (hpolicy : ctx.policy ≠ .raise) (hcutoff : ctx.CutoffInRange) :
    let value := if props.isEmpty then tree else tree.mapCalls (substitute props)
    let transformed := transform tree ctx props
    ((∃ fault, transformed.run.outcome = .error fault) ↔
      ∃ r ∈ value.callsReached ctx, r.1.Faults r.2) ∧
    ((∀ r ∈ value.callsReached ctx, ¬r.1.Faults r.2) →
      ∃ f, (∀ r ∈ value.callsReached ctx, r.1.GivesWay r.2 (f r.1 r.2)) ∧
        transformed.result = value.mapReached f ctx) := by
  intro value transformed
  obtain ⟨houtcome, hresult⟩ := walk_eq_warn value hpolicy
  have hcalls : ∀ r ∈ value.callsReached ctx,
      (Fails (replaceCall r.1 (r.2.under .warn)) ↔ r.1.Faults r.2) := by
    intro r hr
    obtain ⟨hcall, hsame⟩ := Node.of_mem_callsReached hr
    have hcutoff' : r.2.CutoffInRange := by
      rw [Context.CutoffInRange, hsame]
      exact hcutoff
    exact fails_replaceCall_iff hcutoff' hcall
  have hfails : Fails (walk value (ctx.under .warn)).run ↔
      ∃ r ∈ value.callsReached ctx, r.1.Faults r.2 :=
    (fails_walk_iff value ctx).trans (exists_congr fun r => and_congr_right (hcalls r))
  refine ⟨?_, fun hnone => ⟨replacement, fun r hr => ?_, ?_⟩⟩
  · change Fails (walk value ctx).run ↔ _
    rw [Fails, houtcome]
    exact hfails
  · exact givesWay_walkCall fun h => hnone r hr ((hcalls r hr).mp h)
  · refine hresult.trans (result_walk_of_not_fails value ctx fun h => ?_)
    obtain ⟨r, hr, hfaults⟩ := hfails.mp h
    exact hnone r hr hfaults

/-- `color-mod(rgb(0 0 1e-15)) color-mod(blue)` -/
def Node.nearlyBlack : Node :=
  .root [.function colorModName [.function "rgb" [.number "0", .number "0", .number "1e-15"]],
    .function colorModName [.word "blue"]]

/-- A color so dark that its lightness is 0 in doubles is no gray: the format hsl divides by zero,
and the call after it stays too. -/
theorem transform_fails_nearlyBlack :
    let ctx : Context Float := { policy := .ignore, format := .hsl, maxDepth := 64, cutoff := 75 }
    ctx.policy ≠ .raise ∧ ctx.CutoffInRange ∧
    (∃ r ∈ Node.nearlyBlack.callsReached ctx, r.1.Faults r.2) ∧
    (transform Node.nearlyBlack ctx []).result.render =
      "color-mod(rgb(0 0 1e-15)) color-mod(blue)" := by
  intro ctx
  have hpolicy : ctx.policy ≠ .raise := by decide
  have hcutoff : ctx.CutoffInRange := by
    unfold Context.CutoffInRange
    decide +kernel
  obtain ⟨hfails, -⟩ := transform_fails_iff Node.nearlyBlack ctx [] hpolicy hcutoff
  have hfault : ∃ fault, (transform Node.nearlyBlack ctx []).run.outcome = .error fault := by
    have hok : (transform Node.nearlyBlack ctx []).run.outcome.isOk = false := by decide +kernel
    cases h : (transform Node.nearlyBlack ctx []).run.outcome with
    | error fault => exact ⟨fault, rfl⟩
    | ok u => rw [h] at hok; cases hok
  exact ⟨hpolicy, hcutoff, hfails.mp hfault, by decide +kernel⟩

end ColorMod
