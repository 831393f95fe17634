import ColorMod.Proofs.Breaks
import ColorMod.Proofs.Forms
import ColorMod.Proofs.SilentReading
import ColorMod.Proofs.Visits

/-!
# Calls with a seed

A `color-mod` call has a color when it has a seed to start from, whatever its adjusters are
(`Node.HasSeed`).  When it has none, one node is at fault: the call itself, its first argument, or a
node further down the chain of seeds (`Node.LacksSeed`).  Of that node there is a complaint, and of
each call around it that it has no color to start from.

* `resolveColor_decides`: a node other than a call is a color, or it is refused (`Node.refusal`).
* `resolveSeed_settles`, `resolveColorMod_settles`: the first argument of a call, and any call.
* `resolveColorMod_ok_iff_hasSeed`: when a call has a color, and what is noted when it has none.
-/

namespace ColorMod

open Run

/-! ## Colors other than calls -/

section

variable {α : Type}

/-- The space whose color function has the name of the node. -/
def Node.functionSpace? (n : Node) : Option ColorSpace :=
  if n.name = "rgb" ∨ n.name = "rgba" then some .rgb
  else if n.name = "hsl" ∨ n.name = "hsla" then some .hsl
  else if n.name = "hwb" then some .hwb
  else none

/-- What is noted about a node that is no color and no call. -/
def Node.refusal (ctx : Context α) (n : Node) : Diagnostic :=
  if ctx.tooDeep then ⟨.tooDeep, n.outline⟩
  else match n.kind with
    | .function => ⟨n.functionSpace?.elim .color .colorFunction, n.render⟩
    | .word =>
      if n.value.toList.head? = some '#' then ⟨.hexColor, n.value⟩ else ⟨.color, n.render⟩
    | _ => ⟨.color, n.render⟩

variable [Scalar α]

/-- The node says a color, other than by a call: a hex word, a named color, or a color function with
arguments that match a form of it. -/
def Node.IsColor [LightCurve α] (ctx : Context α) (n : Node) : Prop :=
  match n.kind with
  | .function => ∃ space values, n.functionSpace? = some space ∧
      (Pattern.firstOf space.patterns (argumentMeanings n) ctx).outcome = .ok (some values)
  | .word =>
    if n.value.toList.head? = some '#' then ∃ c : Color α, Hex.color? n.value = some c
    else ∃ c : Color α, Color.named? n = some c
  | _ => False

/-- The run returns a color when the condition holds, else it notes the complaint about the node. -/
def Run.Decides (x : Run α (Resolution α)) (condition : Prop) (n : Node) (d : Diagnostic) : Prop :=
  condition ∧ (∃ c, Returns x (.ok c) []) ∨ ¬condition ∧ Returns x (.error ⟨d, n⟩) [d]

theorem resolveNamedFunction_eq {n : Node} (hname : n.name ≠ colorModName)
    (args : List (Argument α)) (ctx : Context α) :
    resolveNamedFunction n args ctx = match n.functionSpace? with
      | some space => resolveFunction space n args ctx
      | none => ctx.reject n n.render .color := by
  unfold resolveNamedFunction Node.functionSpace?
  by_cases hrgb : n.name = "rgb" ∨ n.name = "rgba"
  · simp only [if_pos hrgb]
  by_cases hhsl : n.name = "hsl" ∨ n.name = "hsla"
  · simp only [if_neg hrgb, if_pos hhsl]
  by_cases hhwb : n.name = "hwb"
  · simp only [if_neg hrgb, if_neg hhsl, if_pos hhwb]
  · simp only [if_neg hrgb, if_neg hhsl, if_neg hhwb, if_neg hname]

/-- A word is a color by its digits after `#`, or by its name. -/
theorem resolveWord_decides {n : Node} (hkind : n.kind = .word) (ctx : Context α) :
    (resolveWord n (ctx.under .warn)).Decides
      (if n.value.toList.head? = some '#' then ∃ c : Color α, Hex.color? n.value = some c
        else ∃ c : Color α, Color.named? n = some c) n
      (if n.value.toList.head? = some '#' then ⟨.hexColor, n.value⟩ else ⟨.color, n.render⟩) := by
  unfold resolveWord
  by_cases hhex : n.value.toList.head? = some '#'
  · simp only [if_pos hhex, Component.resolveHex, if_pos hkind]
    cases hcolor : (Hex.color? n.value : Option (Color α)) with
    | some c => exact .inl ⟨⟨c, rfl⟩, c, rfl, rfl⟩
    | none => exact .inr ⟨by simp, rfl, rfl⟩
  · simp only [if_neg hhex]
    cases hcolor : (Color.named? n : Option (Color α)) with
    | some c => exact .inl ⟨⟨c, rfl⟩, c, rfl, rfl⟩
    | none => exact .inr ⟨by simp, rfl, rfl⟩

end

section

variable (ctx : Context Float) {n : Node}

/-- A color function is a color when its arguments match. -/
theorem resolveFunction_decides (n : Node) (space : ColorSpace) :
    (resolveFunction space n (argumentMeanings n) (ctx.under .warn)).Decides
      (∃ values,
        (Pattern.firstOf space.patterns (argumentMeanings n) ctx).outcome = .ok (some values)) n
      ⟨.colorFunction space, n.render⟩ := by
  have hfits : ¬Fails (Pattern.firstOf space.patterns (argumentMeanings n) ctx) :=
    not_fails_firstOf (by cases space <;> decide)
  have hsilent := (Pattern.silent_firstOf space.patterns n ctx).diagnostics_eq
  obtain ⟨found?, hfound⟩ := (fails_or_ok _).resolve_left hfits
  rw [resolveFunction, Pattern.firstOf_under]
  cases found? with
  | none =>
    refine .inr ⟨by simp [hfound], ?_⟩
    exact returns_bind_iff.mpr ⟨none, [], _, ⟨hfound, hsilent⟩, ⟨rfl, rfl⟩, rfl⟩
  | some values =>
    obtain ⟨pattern, hpattern, hform⟩ := Pattern.exists_form_of_firstOf hfound
    obtain ⟨c, hc⟩ := exists_ofValues?_eq_some hpattern hform
    refine .inl ⟨⟨values, hfound⟩, c, ?_⟩
    refine returns_bind_iff.mpr ⟨some values, [], [], ⟨hfound, hsilent⟩, ?_, rfl⟩
    rw [Option.bind_some, hc]
    exact ⟨rfl, rfl⟩

/-- A node other than a call is a color when it says one and is not too deep. -/
theorem resolveColor_decides (hcall : ¬n.isCall) :
    (resolveColor n (ctx.under .warn)).Decides
      ((ctx.depth : Int) ≤ ctx.maxDepth ∧ n.IsColor ctx) n (n.refusal ctx) := by
  rw [resolveColor_eq, ← argumentMeanings_eq, resolveNode, Context.under_tooDeep,
    ← Int.not_lt, ← Context.tooDeep_iff, Node.refusal, Node.IsColor]
  by_cases hdeep : ctx.tooDeep
  · rw [if_pos hdeep, if_pos hdeep]
    exact .inr ⟨fun h => h.1 hdeep, rfl, rfl⟩
  rw [if_neg hdeep, if_neg hdeep, Decides, and_iff_right hdeep]
  cases hkind : n.kind with
  | function =>
    have hname : n.name ≠ colorModName := fun h => hcall ((Node.isCall_iff n).mpr ⟨hkind, h⟩)
    dsimp only
    rw [resolveNamedFunction_eq hname]
    cases hspace : n.functionSpace? with
    | none => exact .inr ⟨by simp, rfl, rfl⟩
    | some space => simpa [Decides] using resolveFunction_decides ctx n space
  | word => exact resolveWord_decides hkind ctx
  | _ => exact .inr ⟨id, rfl, rfl⟩

end

/-! ## Seeds -/

section

variable {α : Type} [Scalar α] [LightCurve α]

mutual

/-- A call has a seed to start from: it is not too deep, and its first argument is a seed. -/
inductive Node.HasSeed : Context α → Node → Prop where
  | call {ctx n seed adjusters} : (ctx.depth : Int) ≤ ctx.maxDepth →
      n.arguments = seed :: adjusters → Node.IsSeed ctx.descend seed → HasSeed ctx n

/-- What a call can start from: a hue, which is never too deep, a color that is not, or a call that
has a seed itself.  A hue is a number without a unit or in degrees, with the unit in any case. -/
inductive Node.IsSeed : Context α → Node → Prop where
  | hue {ctx n} {x : α} : n.isHue → Scalar.ofText? n.value = some x → IsSeed ctx n
  | color {ctx n} : (ctx.depth : Int) ≤ ctx.maxDepth → n.IsColor ctx → IsSeed ctx n
  | call {ctx n} : n.isCall → Node.HasSeed ctx n → IsSeed ctx n

end

theorem Node.hasSeed_iff {ctx : Context α} {n : Node} :
    n.HasSeed ctx ↔ (ctx.depth : Int) ≤ ctx.maxDepth ∧
      ∃ seed ∈ n.arguments.head?, seed.IsSeed ctx.descend := by
  constructor
  · rintro ⟨hdepth, hn, hseed⟩
    exact ⟨hdepth, _, by rw [hn]; rfl, hseed⟩
  · rintro ⟨hdepth, seed, hhead, hseed⟩
    obtain ⟨adjusters, hn⟩ := List.head?_eq_some_iff.mp hhead
    exact .call hdepth hn hseed

mutual

/-- Why a call has no seed: the node at fault with the complaint about it, and the calls around that
node from the inside out. -/
inductive Node.LacksSeed : Context α → Node → Unresolved → List Node → Prop where
  | tooDeep {ctx n} : ctx.maxDepth < ctx.depth →
      LacksSeed ctx n ⟨⟨.tooDeep, n.outline⟩, n⟩ []
  | empty {ctx n} : (ctx.depth : Int) ≤ ctx.maxDepth → n.arguments = [] →
      LacksSeed ctx n ⟨⟨.noArguments, n.render⟩, n⟩ []
  | seed {ctx n seed adjusters inner around} : (ctx.depth : Int) ≤ ctx.maxDepth →
      n.arguments = seed :: adjusters → Node.NoSeed ctx.descend seed inner around →
      LacksSeed ctx n inner (around ++ [n])

/-- Why an argument is no seed. -/
inductive Node.NoSeed : Context α → Node → Unresolved → List Node → Prop where
  | hue {ctx n} : n.isHue → (Scalar.ofText? n.value : Option α) = none →
      NoSeed ctx n ⟨⟨.seedHue, n.value⟩, n⟩ []
  | color {ctx n} : ¬n.isHue → ¬n.isCall → ¬((ctx.depth : Int) ≤ ctx.maxDepth ∧ n.IsColor ctx) →
      NoSeed ctx n ⟨n.refusal ctx, n⟩ []
  | call {ctx n inner around} : n.isCall → Node.LacksSeed ctx n inner around →
      NoSeed ctx n inner around

end

end

/-- What is noted of a node at fault and of the calls around it. -/
def seedReport (inner : Unresolved) (around : List Node) : List Diagnostic :=
  inner.toDiagnostic :: around.map fun n => ⟨.seedColor, n.render⟩

theorem seedReport_append (inner : Unresolved) (around : List Node) (n : Node) :
    seedReport inner (around ++ [n]) = seedReport inner around ++ [⟨.seedColor, n.render⟩] := by
  rw [seedReport, List.map_append, ← List.cons_append]
  rfl

/-- A run that returns comes to a color just when the condition holds; when it does not hold the run
does return, and notes why. -/
structure Run.Settles {α : Type} (x : Run α (Resolution α)) (condition : Prop)
    (why : Unresolved → List Node → Prop) : Prop where
  of_condition : condition → ∀ resolved, x.outcome = .ok resolved → ∃ c, resolved = .ok c
  of_not : ¬condition → ∃ u inner around, Returns x (.error u) (seedReport inner around) ∧
    why inner around

theorem Run.Settles.condition_of_ne {α : Type} {x : Run α (Resolution α)} {condition : Prop}
    {why : Unresolved → List Node → Prop} (hx : x.Settles condition why)
    (h : ∀ u, x.outcome ≠ .ok (.error u)) : condition := by
  by_contra hno
  obtain ⟨u, _, _, hreturns, _⟩ := hx.of_not hno
  exact h u hreturns.outcome_eq

/-! ### One argument -/

section

variable {ctx : Context Float} {n : Node}

theorem Node.kind_of_isHue (hhue : n.isHue) : n.kind = .number := by
  simp only [Node.isHue, Bool.and_eq_true, beq_iff_eq] at hhue
  exact hhue.1

theorem Node.not_isColor_of_isHue (hhue : n.isHue) : ¬n.IsColor ctx := by
  rw [Node.IsColor, Node.kind_of_isHue hhue]
  exact id

theorem Node.not_isColor_of_isCall (hcall : n.isCall) : ¬n.IsColor ctx := by
  obtain ⟨hkind, hname⟩ := (Node.isCall_iff n).mp hcall
  have hspace : n.functionSpace? = none := by
    rw [Node.functionSpace?, hname]
    rfl
  rw [Node.IsColor, hkind]
  rintro ⟨space, values, h, -⟩
  cases hspace.symm.trans h

theorem Node.isSeed_iff_of_isHue (hhue : n.isHue) :
    n.IsSeed ctx ↔ ∃ x : Float, Scalar.ofText? n.value = some x := by
  refine ⟨fun h => ?_, fun ⟨x, hx⟩ => .hue hhue hx⟩
  cases h with
  | hue _ hx => exact ⟨_, hx⟩
  | color _ hcolor => exact absurd hcolor (Node.not_isColor_of_isHue hhue)
  | call hcall => exact absurd hhue (Node.not_isHue_of_isCall hcall)

theorem Node.isSeed_iff_of_isCall (hcall : n.isCall) : n.IsSeed ctx ↔ n.HasSeed ctx := by
  refine ⟨fun h => ?_, .call hcall⟩
  cases h with
  | hue hhue => exact absurd hhue (Node.not_isHue_of_isCall hcall)
  | color _ hcolor => exact absurd hcolor (Node.not_isColor_of_isCall hcall)
  | call _ h => exact h

theorem Node.isSeed_iff (hhue : ¬n.isHue) (hcall : ¬n.isCall) :
    n.IsSeed ctx ↔ (ctx.depth : Int) ≤ ctx.maxDepth ∧ n.IsColor ctx := by
  refine ⟨fun h => ?_, fun ⟨hdepth, hcolor⟩ => .color hdepth hcolor⟩
  cases h with
  | hue h => exact absurd h hhue
  | color hdepth hcolor => exact ⟨hdepth, hcolor⟩
  | call h => exact absurd h hcall

/-- As a first argument a hue is its pure color, if it can be read. -/
theorem resolveSeed_of_isHue (hhue : n.isHue) (ctx : Context Float) :
    resolveSeed (meaning n) ctx = match (Scalar.ofText? n.value : Option Float) with
      | some hue => pure (.ok (.ofChannels .hsl ⟨hue, 1, 0.5⟩ 1))
      | none => ctx.reject n n.value .seedHue := by
  rw [resolveSeed, meaning_node, if_pos hhue, Component.hue?, if_pos hhue]
  cases (Scalar.ofText? n.value : Option Float) <;> rfl

theorem resolveSeed_of_not_isHue (hhue : ¬n.isHue) (ctx : Context Float) :
    resolveSeed (meaning n) ctx = resolveColor n ctx := by
  rw [resolveSeed, meaning_node, if_neg hhue, resolveColor]

/-- The first argument of a call, when what it does as a call is known. -/
theorem resolveSeed_settles
    (hcall : (resolveColorMod n (ctx.under .warn)).Settles (n.HasSeed ctx) (n.LacksSeed ctx)) :
    (resolveSeed (meaning n) (ctx.under .warn)).Settles (n.IsSeed ctx) (n.NoSeed ctx) := by
  by_cases hhue : n.isHue
  · rw [resolveSeed_of_isHue hhue, Node.isSeed_iff_of_isHue hhue]
    cases hread : (Scalar.ofText? n.value : Option Float) with
    | some x => exact ⟨fun _ _ h => ⟨_, (Except.ok.inj h).symm⟩, fun h => absurd ⟨x, rfl⟩ h⟩
    | none => exact ⟨by simp, fun _ => ⟨_, _, [], ⟨rfl, rfl⟩, .hue hhue hread⟩⟩
  rw [resolveSeed_of_not_isHue hhue]
  by_cases hn : n.isCall
  · rw [resolveColor_of_isCall n _ hn, Node.isSeed_iff_of_isCall hn]
    refine ⟨hcall.of_condition, fun h => ?_⟩
    obtain ⟨u, inner, around, hreturns, hlacks⟩ := hcall.of_not h
    exact ⟨u, inner, around, hreturns, .call hn hlacks⟩
  · rw [Node.isSeed_iff hhue hn]
    rcases resolveColor_decides ctx hn with ⟨hcolor, c, hreturns⟩ | ⟨hcolor, hreturns⟩
    · refine ⟨fun _ resolved h => ⟨c, ?_⟩, fun h => absurd hcolor h⟩
      exact Except.ok.inj (h.symm.trans hreturns.outcome_eq)
    · exact ⟨fun h => absurd h hcolor, fun _ => ⟨_, _, [], hreturns, .color hhue hn hcolor⟩⟩

end

/-! ### Calls -/

section

variable {α : Type} [Scalar α] {n : Node} {seed : Argument α} {adjusters : List (Argument α)}
  {ctx : Context α}

/-- The adjusters do not decide whether a call comes to a color. -/
theorem exists_start_of_resolveCall {resolved : Resolution α} (hdeep : ¬ctx.tooDeep)
    (h : (resolveCall n (seed :: adjusters) ctx).outcome = .ok resolved) :
    ∃ start, (resolveSeed seed ctx.descend).outcome = .ok start ∧
      ((∃ c, resolved = .ok c) ↔ ∃ c, start = .ok c) := by
  rw [resolveCall, if_neg hdeep] at h
  obtain ⟨start, hstart, h⟩ := outcome_bind_eq_ok_iff.mp h
  refine ⟨start, hstart, ?_⟩
  cases start with
  | ok c =>
    obtain ⟨_, -, h⟩ := outcome_bind_eq_ok_iff.mp h
    obtain ⟨c', -, h⟩ := outcome_bind_eq_ok_iff.mp h
    cases h
    exact ⟨fun _ => ⟨c, rfl⟩, fun _ => ⟨c', rfl⟩⟩
  | error u =>
    constructor
    · rintro ⟨c, rfl⟩
      exact (Context.reject_ne_ok _ _ _ _ _ h).elim
    · rintro ⟨c, hc⟩
      cases hc

/-- A call whose first argument gives no color notes that after what is noted there. -/
theorem returns_resolveCall_of_no_seed (n : Node) (adjusters : List (Argument α)) {u : Unresolved}
    {ds : List Diagnostic} (hdeep : ¬ctx.tooDeep)
    (h : Returns (resolveSeed seed (ctx.descend.under .warn)) (.error u) ds) :
    Returns (resolveCall n (seed :: adjusters) (ctx.under .warn))
      (.error ⟨⟨.seedColor, n.render⟩, n⟩) (ds ++ [⟨.seedColor, n.render⟩]) := by
  rw [resolveCall, Context.under_tooDeep, if_neg hdeep]
  exact returns_bind_iff.mpr ⟨.error u, ds, _, h, ⟨rfl, rfl⟩, rfl⟩

end

/-- A call comes to a color just when it has a seed, and it notes why it has none. -/
theorem resolveColorMod_settles (n : Node) : ∀ ctx : Context Float,
    (resolveColorMod n (ctx.under .warn)).Settles (n.HasSeed ctx) (n.LacksSeed ctx) := by
  -- only the first argument is gone into, one level deeper, so the induction goes down the chain
  induction n using Node.induction_on_arguments with
  | step n ih =>
    intro ctx
    rw [resolveColorMod_eq]
    by_cases hdeep : ctx.tooDeep
    · have hdepth := ctx.tooDeep_iff.mp hdeep
      unfold resolveCall
      rw [Context.under_tooDeep, if_pos hdeep]
      refine ⟨?_, fun _ => ⟨_, _, [], ⟨rfl, rfl⟩, .tooDeep hdepth⟩⟩
      rintro ⟨h, -⟩
      omega
    have hdepth : (ctx.depth : Int) ≤ ctx.maxDepth := Int.not_lt.mp (mt ctx.tooDeep_iff.mpr hdeep)
    cases hn : n.arguments with
    | nil =>
      unfold resolveCall
      rw [Context.under_tooDeep, if_neg hdeep]
      refine ⟨?_, fun _ => ⟨_, _, [], ⟨rfl, rfl⟩, .empty hdepth hn⟩⟩
      rintro ⟨-, h, -⟩
      cases hn.symm.trans h
    | cons seed adjusters =>
      have hseed := resolveSeed_settles (ih seed (hn ▸ List.mem_cons_self) ctx.descend)
      rw [List.map_cons]
      refine ⟨?_, fun h => ?_⟩
      · rintro ⟨-, h, hisSeed⟩ resolved hresolved
        cases hn.symm.trans h
        have hdeep' : ¬(ctx.under .warn).tooDeep := hdeep
        obtain ⟨start, hstart, hiff⟩ := exists_start_of_resolveCall hdeep' hresolved
        exact hiff.mpr (hseed.of_condition hisSeed start hstart)
      · have hnot : ¬seed.IsSeed ctx.descend := fun hisSeed => h (.call hdepth hn hisSeed)
        obtain ⟨u, inner, around, hreturns, hwhy⟩ := hseed.of_not hnot
        have hcall := returns_resolveCall_of_no_seed n (adjusters.map meaning) hdeep hreturns
        rw [← seedReport_append] at hcall
        exact ⟨_, inner, around ++ [n], hcall, .seed hdepth hn hwhy⟩

/-- A call that ends without a fault has a color just when it is not too deep and its first argument
gives one. -/
theorem ok_iff_of_resolveColorMod {n : Node} {ctx : Context Float} {resolved : Resolution Float}
    (h : (resolveColorMod n ctx).outcome = .ok resolved) :
    (∃ c, resolved = .ok c) ↔ ¬ctx.tooDeep ∧ ∃ seed adjusters, n.arguments = seed :: adjusters ∧
      ∃ c, (resolveSeed (meaning seed) ctx.descend).outcome = .ok (.ok c) := by
  rw [resolveColorMod_eq] at h
  constructor
  · rintro ⟨c, rfl⟩
    obtain ⟨hdeep, _, _, c₀, _, _, hargs, hseed, -⟩ := returns_resolveCall_iff.mp ⟨h, rfl⟩
    obtain ⟨seed, adjusters, hn, rfl, -⟩ := List.map_eq_cons_iff.mp hargs
    exact ⟨hdeep, seed, adjusters, hn, c₀, hseed.outcome_eq⟩
  · rintro ⟨hdeep, seed, adjusters, hn, c₀, hseed⟩
    rw [hn, List.map_cons] at h
    obtain ⟨start, hstart, hiff⟩ := exists_start_of_resolveCall hdeep h
    cases hseed.symm.trans hstart
    exact hiff.mpr ⟨c₀, rfl⟩

/-- The first argument gives a color just when it is a hue that can be read, or resolves to a
color. -/
theorem exists_resolveSeed_iff {ctx : Context Float} {seed : Node} :
    (∃ c, (resolveSeed (meaning seed) ctx).outcome = .ok (.ok c)) ↔
      seed.isHue ∧ (∃ x : Float, Scalar.ofText? seed.value = some x) ∨
        ∃ c, (resolveColor seed ctx).outcome = .ok (.ok c) := by
  have hcolor : seed.isHue → ∀ c, (resolveColor seed ctx).outcome ≠ .ok (.ok c) := by
    intro hhue c h
    rw [resolveColor_eq, resolveNode, Node.kind_of_isHue hhue] at h
    split at h <;> exact Context.reject_ne_ok _ _ _ _ _ h
  by_cases hhue : seed.isHue
  · rw [resolveSeed_of_isHue hhue, and_iff_right hhue]
    cases hread : (Scalar.ofText? seed.value : Option Float) with
    | some x => exact ⟨fun _ => .inl ⟨x, rfl⟩, fun _ => ⟨_, rfl⟩⟩
    | none =>
      constructor
      · rintro ⟨c, h⟩
        exact (Context.reject_ne_ok _ _ _ _ _ h).elim
      · rintro (⟨x, h⟩ | ⟨c, h⟩)
        · cases h
        · exact absurd h (hcolor hhue c)
  · rw [resolveSeed_of_not_isHue hhue]
    exact ⟨.inr, fun h => h.resolve_left fun h => hhue h.1⟩

/-! ## Complaints about adjusters -/

/-- The complaint is about an adjuster. -/
def Complaint.isAboutAdjuster : Complaint → Bool
  | noAdjuster | unknownAdjuster _ | unknownChannel | adjusterArguments _ | unknownSpace _ => true
  | _ => false

theorem Node.refusal_not_isAboutAdjuster {α : Type} (ctx : Context α) (n : Node) :
    ¬(n.refusal ctx).complaint.isAboutAdjuster := by
  unfold Node.refusal
  split
  · exact Bool.false_ne_true
  · split
    · cases n.functionSpace? <;> exact Bool.false_ne_true
    · split <;> exact Bool.false_ne_true
    · exact Bool.false_ne_true

theorem Node.LacksSeed.not_isAboutAdjuster {α : Type} [Scalar α] [LightCurve α] {n : Node} :
    ∀ {ctx : Context α} {inner : Unresolved} {around : List Node},
      n.LacksSeed ctx inner around → ¬inner.complaint.isAboutAdjuster := by
  induction n using Node.induction_on_arguments with
  | step n ih =>
    intro ctx inner around h
    cases h with
    | tooDeep => exact Bool.false_ne_true
    | empty => exact Bool.false_ne_true
    | @seed _ _ seed _ _ _ _ hn hseed =>
      cases hseed with
      | hue => exact Bool.false_ne_true
      | color => exact seed.refusal_not_isAboutAdjuster _
      | call _ h => exact ih seed (hn ▸ List.mem_cons_self) h

/-- What is noted of a call without a seed is about no adjuster. -/
theorem Node.LacksSeed.seedReport_not_isAboutAdjuster {α : Type} [Scalar α] [LightCurve α] {n : Node}
    {ctx : Context α} {inner : Unresolved} {around : List Node} (h : n.LacksSeed ctx inner around) :
    ∀ d ∈ seedReport inner around, ¬d.complaint.isAboutAdjuster := by
  refine List.forall_mem_cons.mpr ⟨h.not_isAboutAdjuster, List.forall_mem_map.mpr fun n _ => ?_⟩
  exact Bool.false_ne_true

/-! ## Faults -/

/-- Only a conversion that cannot be made ends the run. -/
def Run.OnlyArithmetic {α β : Type} (x : Run α β) : Prop :=
  ∀ fault, x.outcome = .error fault → ∃ a, fault = .arithmetic a

/-- Unless complaints are raised, and with a cutoff in range, only arithmetic ends a run. -/
theorem Run.onlyArithmetic_invariant :
    Invariant (fun ctx : Context Float => ctx.policy ≠ .raise ∧ ctx.CutoffInRange)
      fun _ x => x.OnlyArithmetic where
  pure _ _ h := by cases h
  bind hx hf fault h := by
    rcases outcome_bind_eq_error_iff.mp h with h | ⟨b, -, h⟩
    · exact hx fault h
    · exact hf b fault h
  tell _ _ h := by cases h
  ofArithmetic x fault h := by
    cases x with
    | ok b => cases h
    | error a => cases h; exact ⟨a, rfl⟩
  hint h name choices fault hfault := by
    exact absurd ⟨fault, hfault⟩ (Context.not_fails_hint h.2 name choices)
  report {ctx} h node word complaint fault hfault := by
    unfold Context.report at hfault
    split at hfault
    · cases hfault
    · cases hfault
    · next hraise => exact absurd hraise h.1
  descend h := h
  quiet h := ⟨Policy.noConfusion, h.2⟩

/-! ## When a call has a color -/

/-- Unless complaints are raised, a call that ends without a fault has a color just when it has a
seed: when it is not too deep, and its first argument is a hue that can be read or resolves to a
color one level deeper.  The adjusters do not matter, other than for faults.  Without a seed there is
no fault, and what is noted under `warn` is the complaint about the node at fault and then one about
each call around it, none of them about an adjuster. -/
theorem resolveColorMod_ok_iff_hasSeed (call : Node) (ctx : Context Float) (p : Policy)
    (hp : p ≠ .raise) :
    (∀ resolved, (resolveColorMod call (ctx.under p)).outcome = .ok resolved →
      ((∃ c, resolved = .ok c) ↔ call.HasSeed ctx) ∧
      ((∃ c, resolved = .ok c) ↔ (ctx.depth : Int) ≤ ctx.maxDepth ∧
        ∃ seed adjusters, call.arguments = seed :: adjusters ∧
          (seed.isHue ∧ (∃ x : Float, Scalar.ofText? seed.value = some x) ∨
            ∃ c, (resolveColor seed (ctx.descend.under p)).outcome = .ok (.ok c)))) ∧
    (∀ fault, (resolveColorMod call (ctx.under p)).outcome = .error fault →
      call.HasSeed ctx ∧ (ctx.CutoffInRange → ∃ a, fault = .arithmetic a)) ∧
    (¬call.HasSeed ctx → ∃ u inner around,
      Returns (resolveColorMod call (ctx.under .warn)) (.error u) (seedReport inner around) ∧
      call.LacksSeed ctx inner around ∧
      ∀ d ∈ seedReport inner around, ¬d.complaint.isAboutAdjuster) ∧
    ∀ other : Node, other.arguments.head? = call.arguments.head? →
      (other.HasSeed ctx ↔ call.HasSeed ctx) := by
  have hsettles := resolveColorMod_settles call ctx
  have hpolicy : (resolveColorMod call (ctx.under p)).outcome =
      (resolveColorMod call (ctx.under .warn)).outcome := by
    cases p with
    | ignore => exact (resolveColorMod_agree call ctx).outcome_eq
    | warn => rfl
    | raise => exact absurd rfl hp
  refine ⟨fun resolved h => ⟨⟨?_, fun hseed => ?_⟩, ?_⟩, fun fault h => ⟨?_, fun hcutoff => ?_⟩,
    fun h => ?_, fun other hhead => ?_⟩
  · rintro ⟨c, rfl⟩
    exact hsettles.condition_of_ne fun u hu => by cases hu.symm.trans (hpolicy.symm.trans h)
  · exact hsettles.of_condition hseed resolved (hpolicy.symm.trans h)
  · rw [ok_iff_of_resolveColorMod h, Context.under_tooDeep, Context.tooDeep_iff, Int.not_lt,
      Context.under_descend]
    simp only [exists_resolveSeed_iff]
  · exact hsettles.condition_of_ne fun u hu => by cases hu.symm.trans (hpolicy.symm.trans h)
  · have hinvariant := Run.onlyArithmetic_invariant
    have hadmits : (ctx.under p).policy ≠ .raise ∧ (ctx.under p).CutoffInRange := ⟨hp, hcutoff⟩
    exact hinvariant.resolveCall hadmits call (hinvariant.arguments call) fault h
  · obtain ⟨u, inner, around, hreturns, hlacks⟩ := hsettles.of_not h
    exact ⟨u, inner, around, hreturns, hlacks, hlacks.seedReport_not_isAboutAdjuster⟩
  · rw [Node.hasSeed_iff, Node.hasSeed_iff, hhead]

theorem exists_error_of_any {α : Type} {x : Except Fault (Resolution α)}
    (h : x.toOption.any fun resolved => !resolved.isOk) : ∃ u, x = .ok (.error u) := by
  match x, h with
  | .ok (.error u), _ => exact ⟨u, rfl⟩

/-- `color-mod(30 nope())` -/
def Node.thirtyDegrees : Node :=
  .function colorModName [.number "30", .function "nope" []]

/-- `color-mod(color-mod(nope shade(20%)) foo())` -/
def Node.nestedNoColor : Node :=
  .function colorModName
    [.function colorModName [.word "nope", .function "shade" [.number "20" "%"]],
      .function "foo" []]

/-- With the limit 0 a hue is a seed and a color is not, which is one level too deep; with the limit
2 the innermost word is at fault, and neither `shade` nor `foo` is mentioned. -/
theorem resolveColorMod_ok_iff_hasSeed_nested :
    let ctx : Context Float := { policy := .warn, format := .legacy, maxDepth := 2, cutoff := 75 }
    let flat : Context Float := { ctx with maxDepth := 0 }
    let red : Node := .function colorModName [.word "red"]
    Policy.warn ≠ .raise ∧ Node.thirtyDegrees.HasSeed flat ∧ ¬red.HasSeed flat ∧ red.HasSeed ctx ∧
    ¬Node.nestedNoColor.HasSeed ctx ∧
    ∃ u, Returns (resolveColorMod Node.nestedNoColor ctx) (.error u)
      [⟨.color, "nope"⟩, ⟨.seedColor, "color-mod(nope shade(20%))"⟩,
        ⟨.seedColor, "color-mod(color-mod(nope shade(20%)) foo())"⟩] := by
  intro ctx flat red
  have hwarn : Policy.warn ≠ .raise := by decide
  have haccepts : ∀ (call : Node) (ctx : Context Float),
      (∃ c, (resolveColorMod call (ctx.under .warn)).outcome = .ok (.ok c)) → call.HasSeed ctx := by
    rintro call ctx ⟨c, hc⟩
    exact ((resolveColorMod_ok_iff_hasSeed call ctx .warn hwarn).1 (.ok c) hc).1.mp ⟨c, rfl⟩
  have hrefuses : ∀ (call : Node) (ctx : Context Float) (u : Unresolved),
      (resolveColorMod call (ctx.under .warn)).outcome = .ok (.error u) → ¬call.HasSeed ctx := by
    intro call ctx u hu h
    obtain ⟨c, hc⟩ := ((resolveColorMod_ok_iff_hasSeed call ctx .warn hwarn).1 (.error u) hu).1.mpr h
    cases hc
  obtain ⟨u, hu⟩ : ∃ u, (resolveColorMod Node.nestedNoColor ctx).outcome = .ok (.error u) :=
    exists_error_of_any (by decide +kernel)
  obtain ⟨u', hu'⟩ : ∃ u, (resolveColorMod red flat).outcome = .ok (.error u) :=
    exists_error_of_any (by decide +kernel)
  refine ⟨hwarn, haccepts _ flat ?_, hrefuses _ flat u' hu', haccepts _ ctx ?_,
    hrefuses _ ctx u hu, u, hu, by decide +kernel⟩
  · exact exists_color_of_any (by decide +kernel)
  · exact exists_color_of_any (by decide +kernel)

end ColorMod
