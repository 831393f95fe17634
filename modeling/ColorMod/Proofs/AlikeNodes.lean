import Mathlib.Data.List.Forall2
import ColorMod.Proofs.Meanings
import ColorMod.Proofs.Runs

/-!
# Nodes that are alike

Resolution reads a node through a few properties of it.  A `NodeLikeness` says when nodes are alike
and owes no more than that alike nodes have these in common: their kind, their name in lower case,
what they are as a number or a hex color, and arguments that are alike one by one.  What such nodes
are quoted with may differ, as far as parts of texts that are alike may.

* `NodeLikeness.Runs`: runs that end alike and have alike diagnostics, in the same order.
* `Runs.bind`: one run after the other.
* `resolveCall_runs`, `applyNode_runs` and the others: one function after the other.
* `means_meaning`: alike nodes mean the same as colors and as adjusters.
-/

namespace ColorMod

/-- When nodes are alike, and when parts of texts are. -/
structure NodeLikeness where
  node : Node → Node → Prop
  text : String → String → Prop
  kind_eq {m n : Node} : node m n → m.kind = n.kind
  name_eq {m n : Node} : node m n → m.name = n.name
  /-- Apart from names all counts as it is written. -/
  value_eq {m n : Node} : node m n → m.kind ≠ .function → m.kind ≠ .word → m.value = n.value
  isNumber_eq {m n : Node} : node m n → m.isNumber = n.isNumber
  isPercentage_eq {m n : Node} : node m n → m.isPercentage = n.isPercentage
  isHue_eq {m n : Node} : node m n → m.isHue = n.isHue
  bytes?_eq {m n : Node} : node m n → m.kind = .word → Hex.bytes? m.value = Hex.bytes? n.value
  hash_iff {m n : Node} : node m n → m.kind = .word →
    (m.value.toList.head? = some '#' ↔ n.value.toList.head? = some '#')
  text_value {m n : Node} : node m n → text m.value n.value
  text_render {m n : Node} : node m n → text m.render n.render
  text_outline {m n : Node} : node m n → text m.outline n.outline
  arguments {m n : Node} : node m n → List.Forall₂ node m.arguments n.arguments

/-- Both computations have results, which are related, or both have errors that are. -/
inductive EndsBy {ε ε' β γ : Type} (E : ε → ε' → Prop) (R : β → γ → Prop) :
    Except ε β → Except ε' γ → Prop
  | ok {b : β} {c : γ} (h : R b c) : EndsBy E R (.ok b) (.ok c)
  | error {e : ε} {e' : ε'} (h : E e e') : EndsBy E R (.error e) (.error e')

/-- Where the relations are functions, so is the one between the computations. -/
theorem EndsBy.eq_map {ε ε' β γ : Type} {E : ε → ε' → Prop} {R : β → γ → Prop} {x : Except ε β}
    {y : Except ε' γ} (h : EndsBy E R x y) {f : ε → ε'} {g : β → γ}
    (hE : ∀ e e', E e e' → e' = f e) (hR : ∀ b c, R b c → c = g b) : y = (x.mapError f).map g := by
  cases h with
  | ok h => rw [hR _ _ h]; rfl
  | error h => rw [hE _ _ h]; rfl

namespace NodeLikeness

variable (l : NodeLikeness) {α β γ δ ε : Type}

/-! ## Runs -/

/-- The same is noted, about alike parts of texts. -/
structure Notes (d e : Diagnostic) : Prop where
  complaint_eq : d.complaint = e.complaint
  word : l.text d.word e.word

/-- The same is wrong, with alike nodes. -/
structure Rejects (u v : Unresolved) : Prop where
  notes : l.Notes u.toDiagnostic v.toDiagnostic
  node : l.node u.node v.node

inductive Faults : Fault → Fault → Prop
  | arithmetic (fault : ArithmeticFault) : Faults (.arithmetic fault) (.arithmetic fault)
  | suggestion (fault : Suggestion.Fault) : Faults (.suggestion fault) (.suggestion fault)
  | unresolved {u v : Unresolved} (h : l.Rejects u v) : Faults (.unresolved u) (.unresolved v)

/-- The same color, or alike nodes that are none for the same reason. -/
abbrev Resolves : Resolution α → Resolution α → Prop :=
  EndsBy l.Rejects Eq

/-- The runs end alike and note alike. -/
structure Runs (R : β → γ → Prop) (x : Run α β) (y : Run α γ) : Prop where
  outcome : EndsBy l.Faults R x.outcome y.outcome
  diagnostics : List.Forall₂ l.Notes x.diagnostics y.diagnostics

namespace Runs

variable {l} {R : β → γ → Prop} {S : δ → ε → Prop} {x x' : Run α β} {y y' : Run α γ}

theorem pure {b : β} {c : γ} (h : R b c) : l.Runs R (Pure.pure b : Run α β) (Pure.pure c) :=
  ⟨.ok h, .nil⟩

theorem bind {f : β → Run α δ} {g : γ → Run α ε} (hxy : l.Runs R x y)
    (hfg : ∀ b c, R b c → l.Runs S (f b) (g c)) : l.Runs S (x >>= f) (y >>= g) := by
  obtain ⟨houtcome, hdiagnostics⟩ := hxy
  cases hx : x.outcome with
  | ok b =>
    cases hy : y.outcome with
    | error e => rw [hx, hy] at houtcome; cases houtcome
    | ok c =>
      rw [hx, hy] at houtcome
      cases houtcome with
      | ok hbc =>
        have hrest := hfg b c hbc
        constructor
        · rw [Run.outcome_bind_of_ok hx, Run.outcome_bind_of_ok hy]
          exact hrest.outcome
        · rw [Run.diagnostics_bind_of_ok hx, Run.diagnostics_bind_of_ok hy]
          exact List.rel_append hdiagnostics hrest.diagnostics
  | error e =>
    cases hy : y.outcome with
    | ok c => rw [hx, hy] at houtcome; cases houtcome
    | error e' =>
      rw [hx, hy] at houtcome
      cases houtcome with
      | error he =>
        constructor
        · rw [Run.outcome_bind_of_error hx, Run.outcome_bind_of_error hy]
          exact .error he
        · rw [Run.diagnostics_bind_of_error hx, Run.diagnostics_bind_of_error hy]
          exact hdiagnostics

/-- What is told among the events does not count. -/
theorem tell_bind (event event' : Event α) (hxy : l.Runs R x y) :
    l.Runs R (Run.tell event >>= fun _ => x) (Run.tell event' >>= fun _ => y) :=
  ⟨hxy.outcome, hxy.diagnostics⟩

theorem ite {c : Prop} [Decidable c] (h : c → l.Runs R x y) (h' : ¬c → l.Runs R x' y') :
    l.Runs R (if c then x else x') (if c then y else y') := by
  by_cases hc : c
  · rw [if_pos hc, if_pos hc]
    exact h hc
  · rw [if_neg hc, if_neg hc]
    exact h' hc

theorem ofArithmetic (x : Except ArithmeticFault β) :
    l.Runs Eq (Run.ofArithmetic x : Run α β) (Run.ofArithmetic x) := by
  cases x with
  | ok b => exact ⟨.ok rfl, .nil⟩
  | error fault => exact ⟨.error (.arithmetic fault), .nil⟩

/-- Hints are for names in lower case. -/
theorem hint [Scalar α] (ctx : Context α) {s t : String} (h : Text.lower s = Text.lower t)
    (choices : List String) : l.Runs Eq (ctx.hint s choices) (ctx.hint t choices) := by
  have hsame : suggest s choices ctx.cutoff = suggest t choices ctx.cutoff := by
    rw [suggest, suggest, Suggestion.normalized, Suggestion.normalized, h]
  unfold Context.hint
  rw [hsame]
  cases suggest t choices ctx.cutoff with
  | ok hint => exact ⟨.ok rfl, .nil⟩
  | error fault => exact ⟨.error (.suggestion fault), .nil⟩

variable {m n : Node} {s t : String}

theorem report (ctx : Context α) (hnode : l.node m n) (htext : l.text s t)
    (complaint : Complaint) :
    l.Runs l.Rejects (ctx.report m s complaint) (ctx.report n t complaint) := by
  have hrejects : l.Rejects { complaint, word := s, node := m }
      { complaint, word := t, node := n } := ⟨⟨rfl, htext⟩, hnode⟩
  unfold Context.report
  cases ctx.policy with
  | ignore => exact .pure hrejects
  | warn => exact ⟨.ok hrejects, .cons hrejects.notes .nil⟩
  | raise => exact ⟨.error (.unresolved hrejects), .nil⟩

theorem reject (ctx : Context α) (hnode : l.node m n) (htext : l.text s t)
    (complaint : Complaint) :
    l.Runs l.Resolves (ctx.reject m s complaint) (ctx.reject n t complaint) :=
  (report ctx hnode htext complaint).bind fun _ _ h => .pure (.error h)

end Runs

/-! ## Reading arguments -/

variable [Scalar α]

/-- Alike nodes with the same meaning. -/
structure Means (arg arg' : Argument α) : Prop where
  node : l.node arg.node arg'.node
  color : ∀ ctx : Context α, l.Runs l.Resolves (arg.color ctx) (arg'.color ctx)
  adjust : ∀ (c : Color α) (ctx : Context α),
    l.Runs l.Resolves (arg.adjust c ctx) (arg'.adjust c ctx)

variable {l} {m n : Node}

/-- What a node is as a hex color, if it is a word. -/
theorem hexColor?_eq (h : l.node m n) :
    (if m.kind = .word then Hex.color? m.value else none : Option (Color α)) =
      if n.kind = .word then Hex.color? n.value else none := by
  rw [← l.kind_eq h]
  split
  · next hword => rw [Hex.color?, Hex.color?, l.bytes?_eq h hword]
  · rfl

theorem resolveHex_runs (h : l.node m n) (ctx : Context α) :
    l.Runs l.Resolves (Component.resolveHex m ctx) (Component.resolveHex n ctx) := by
  unfold Component.resolveHex
  rw [hexColor?_eq h]
  cases (if n.kind = .word then Hex.color? n.value else none : Option (Color α)) with
  | some c => exact .pure (.ok rfl)
  | none => exact .reject ctx h (l.text_value h) _

/-! ### Numbers, operators and words -/

theorem value_eq_of_isNumber (h : l.node m n) (hm : m.kind = .number) : m.value = n.value :=
  l.value_eq h (by simp [hm]) (by simp [hm])

theorem kind_of_isNumber (h : m.isNumber) : m.kind = .number := by
  simp only [Node.isNumber, Bool.and_eq_true, beq_iff_eq] at h
  exact h.1

theorem kind_of_isPercentage (h : m.isPercentage) : m.kind = .number := by
  simp only [Node.isPercentage, Bool.and_eq_true, beq_iff_eq] at h
  exact h.1

theorem kind_of_isHue (h : m.isHue) : m.kind = .number := by
  simp only [Node.isHue, Bool.and_eq_true, beq_iff_eq] at h
  exact h.1

open Component in
theorem number?_eq (h : l.node m n) : (number? m : Option α) = number? n := by
  unfold number?
  rw [← l.isNumber_eq h]
  split
  · next hnumber => rw [value_eq_of_isNumber h (kind_of_isNumber hnumber)]
  · rfl

open Component in
theorem percentage?_eq (h : l.node m n) : (percentage? m : Option α) = percentage? n := by
  unfold percentage?
  rw [← l.isPercentage_eq h]
  split
  · next hnumber => rw [value_eq_of_isNumber h (kind_of_isPercentage hnumber)]
  · rfl

open Component in
theorem hue?_eq (h : l.node m n) : (hue? m : Option α) = hue? n := by
  unfold hue?
  rw [← l.isHue_eq h]
  split
  · next hnumber => rw [value_eq_of_isNumber h (kind_of_isHue hnumber)]
  · rfl

open Component in
theorem alpha?_eq (h : l.node m n) : (alpha? m : Option α) = alpha? n := by
  rw [alpha?, alpha?, l.isNumber_eq h, number?_eq h, percentage?_eq h]

open Component in
theorem rgbNumber?_eq (h : l.node m n) : (rgbNumber? m : Option α) = rgbNumber? n := by
  rw [rgbNumber?, rgbNumber?, number?_eq h]

open Component in
theorem rgbValue?_eq (h : l.node m n) : (rgbValue? m : Option α) = rgbValue? n := by
  rw [rgbValue?, rgbValue?, l.isNumber_eq h, rgbNumber?_eq h, percentage?_eq h]

theorem ofNode?_eq (h : l.node m n) (allowed : List Operator) :
    Operator.ofNode? m allowed = Operator.ofNode? n allowed := by
  unfold Operator.ofNode?
  rw [← l.kind_eq h]
  split
  · next hkind => rw [l.value_eq h (by simp [hkind]) (by simp [hkind])]
  · rfl

theorem isSlash_eq (h : l.node m n) : m.isSlash = n.isSlash := by
  unfold Node.isSlash
  rw [← l.kind_eq h]
  by_cases hkind : m.kind = .operator
  · rw [l.value_eq h (by simp [hkind]) (by simp [hkind])]
  · rw [beq_false_of_ne hkind, Bool.false_and, Bool.false_and]

theorem isComma_eq (h : l.node m n) : m.isComma = n.isComma := by
  rw [Node.isComma, Node.isComma, l.kind_eq h]

theorem colorSpace?_eq (h : l.node m n) : m.colorSpace? = n.colorSpace? := by
  rw [Node.colorSpace?, Node.colorSpace?, l.kind_eq h, l.name_eq h]

/-! ### Patterns -/

omit [Scalar α] in
theorem ofResolution_eq {r r' : Resolution α} (h : l.Resolves r r') :
    Component.ofResolution r = Component.ofResolution r' := by
  cases h with
  | ok h => rw [h]
  | error h => rfl

theorem read_runs (component : Component) {arg arg' : Argument α} (harg : l.Means arg arg')
    (ctx : Context α) : l.Runs Eq (component.read arg ctx) (component.read arg' ctx) := by
  have h := harg.node
  have hresolved (r r' : Resolution α) (hr : l.Resolves r r') :
      l.Runs Eq (Pure.pure (Component.ofResolution r) : Run α (Reading α))
        (Pure.pure (Component.ofResolution r')) :=
    .pure (ofResolution_eq hr)
  unfold Component.read
  cases component with
  | color => exact (harg.color ctx.descend).bind hresolved
  | hexColor => exact (resolveHex_runs h ctx).bind hresolved
  | number => exact .pure (by rw [number?_eq h])
  | percentage => exact .pure (by rw [percentage?_eq h])
  | hue => exact .pure (by rw [hue?_eq h])
  | alpha => exact .pure (by rw [alpha?_eq h])
  | channelValue => exact .pure (by rw [alpha?_eq h])
  | rgbValue => exact .pure (by rw [rgbValue?_eq h])
  | rgbNumber => exact .pure (by rw [rgbNumber?_eq h])
  | plusMinus => exact .pure (by rw [ofNode?_eq h])
  | times => exact .pure (by rw [ofNode?_eq h])
  | plusMinusTimes => exact .pure (by rw [ofNode?_eq h])
  | slash => exact .pure (by rw [isSlash_eq h])
  | comma => exact .pure (by rw [isComma_eq h])
  | colorSpace => exact .pure (by rw [colorSpace?_eq h])

section

variable {args args' : List (Argument α)}

theorem readAll_runs (ctx : Context α) (pattern : Pattern)
    (hargs : List.Forall₂ l.Means args args') :
    l.Runs Eq (Pattern.readAll ctx pattern args) (Pattern.readAll ctx pattern args') := by
  induction pattern generalizing args args' with
  | nil => cases hargs <;> exact .pure rfl
  | cons component pattern ih =>
    cases hargs with
    | nil => exact .pure rfl
    | cons harg hargs =>
      refine (read_runs component harg ctx).bind fun reading _ hreading => ?_
      cases hreading
      cases reading with
      | unfit => exact .pure rfl
      | separator => exact ih hargs
      | found value => exact (ih hargs).bind fun values _ hvalues => .pure (by rw [hvalues])

theorem firstOf_runs (ctx : Context α) (patterns : List Pattern)
    (hargs : List.Forall₂ l.Means args args') :
    l.Runs Eq (Pattern.firstOf patterns args ctx) (Pattern.firstOf patterns args' ctx) := by
  induction patterns with
  | nil => exact .pure rfl
  | cons pattern patterns ih =>
    have hmatches : l.Runs Eq (pattern.matches? args ctx.quiet)
        (pattern.matches? args' ctx.quiet) := by
      unfold Pattern.matches?
      rw [← hargs.length_eq]
      exact .ite (fun _ => readAll_runs ctx.quiet pattern hargs) fun _ => .pure rfl
    refine hmatches.bind fun values _ hvalues => ?_
    cases hvalues
    cases values with
    | none => exact ih
    | some values => exact .pure rfl

/-! ## Adjusters and colors -/

theorem unknownName_runs (ctx : Context α) {s t : String} (h : Text.lower s = Text.lower t)
    (fullName : String) :
    l.Runs Eq (Adjuster.unknownName s fullName ctx) (Adjuster.unknownName t fullName ctx) :=
  .ite (fun _ => .pure rfl) fun _ => (Runs.hint ctx h _).bind fun _ _ hhint => .pure (by rw [hhint])

omit [Scalar α] in
/-- A third argument that names no space is one in both lists. -/
theorem unknownSpace?_cases (adjuster : Adjuster) (hargs : List.Forall₂ l.Means args args') :
    (Adjuster.unknownSpace? adjuster args = none ∧ Adjuster.unknownSpace? adjuster args' = none) ∨
      ∃ word word', Adjuster.unknownSpace? adjuster args = some word ∧
        Adjuster.unknownSpace? adjuster args' = some word' ∧ l.node word word' := by
  cases adjuster with
  | blend | blendAlpha =>
    match hargs with
    | .nil | .cons _ .nil | .cons _ (.cons _ .nil) | .cons _ (.cons _ (.cons _ (.cons _ _))) =>
      exact .inl ⟨rfl, rfl⟩
    | .cons _ (.cons _ (.cons harg .nil)) =>
      simp only [Adjuster.unknownSpace?, ← l.kind_eq harg.node, ← colorSpace?_eq harg.node]
      split
      · exact .inr ⟨_, _, rfl, rfl, harg.node⟩
      · exact .inl ⟨rfl, rfl⟩
  | _ => exact .inl ⟨rfl, rfl⟩

theorem unfit_runs (h : l.node m n) (adjuster : Adjuster) (fullName : String) (ctx : Context α)
    (hargs : List.Forall₂ l.Means args args') :
    l.Runs l.Resolves (Adjuster.unfit m adjuster fullName args ctx)
      (Adjuster.unfit n adjuster fullName args' ctx) := by
  unfold Adjuster.unfit
  rcases unknownSpace?_cases adjuster hargs with ⟨hm, hn⟩ | ⟨word, word', hm, hn, hword⟩
  · rw [hm, hn]
    exact .reject ctx h (l.text_render h) _
  · rw [hm, hn]
    refine (Runs.hint ctx (l.name_eq hword) _).bind fun hint _ hhint => ?_
    cases hhint
    exact .reject ctx h (l.text_value hword) _

omit [Scalar α] in
theorem applyAll_runs (ctx : Context α) (c : Color α) (hargs : List.Forall₂ l.Means args args') :
    l.Runs Eq (Adjuster.applyAll ctx c args) (Adjuster.applyAll ctx c args') := by
  induction hargs generalizing c with
  | nil => exact .pure rfl
  | cons harg hargs ih =>
    refine (harg.adjust c ctx).bind fun resolution resolution' h => ?_
    cases h with
    | ok h =>
      cases h
      exact (ih _).tell_bind _ _
    | error h => exact (ih c).tell_bind _ _

theorem resolveFunction_runs (h : l.node m n) (space : ColorSpace) (ctx : Context α)
    (hargs : List.Forall₂ l.Means args args') :
    l.Runs l.Resolves (resolveFunction space m args ctx) (resolveFunction space n args' ctx) := by
  refine (firstOf_runs ctx space.patterns hargs).bind fun values _ hvalues => ?_
  cases hvalues
  cases values.bind (Color.ofValues? space) with
  | some c => exact .pure (.ok rfl)
  | none => exact .reject ctx h (l.text_render h) _

theorem resolveWord_runs (h : l.node m n) (hword : m.kind = .word) (ctx : Context α) :
    l.Runs l.Resolves (resolveWord m ctx) (resolveWord n ctx) := by
  have hnamed : (Color.named? m : Option (Color α)) = Color.named? n := by
    have hname : Text.lower m.value = Text.lower n.value := l.name_eq h
    rw [Color.named?, Color.named?, l.kind_eq h, namedColor?, namedColor?, namedBytes?, namedBytes?,
      hname]
  unfold resolveWord
  simp only [← hnamed, ← l.hash_iff h hword]
  refine .ite (fun _ => resolveHex_runs h ctx) fun _ => ?_
  cases (Color.named? m : Option (Color α)) with
  | some c => exact .pure (.ok rfl)
  | none => exact .reject ctx h (l.text_render h) _

theorem resolveSeed_runs {arg arg' : Argument α} (harg : l.Means arg arg') (ctx : Context α) :
    l.Runs l.Resolves (resolveSeed arg ctx) (resolveSeed arg' ctx) := by
  unfold resolveSeed
  rw [← l.isHue_eq harg.node, ← hue?_eq harg.node]
  refine .ite (fun _ => ?_) fun _ => harg.color ctx
  cases (Component.hue? arg.node : Option α) with
  | some hue => exact .pure (.ok rfl)
  | none => exact .reject ctx harg.node (l.text_value harg.node) _

theorem resolveCall_runs (h : l.node m n) (ctx : Context α)
    (hargs : List.Forall₂ l.Means args args') :
    l.Runs l.Resolves (resolveCall m args ctx) (resolveCall n args' ctx) := by
  refine .ite (fun _ => .reject ctx h (l.text_outline h) _) fun _ => ?_
  cases hargs with
  | nil => exact .reject ctx h (l.text_render h) _
  | cons hseed hadjusters =>
    refine (resolveSeed_runs hseed ctx.descend).bind fun resolution resolution' hresolution => ?_
    cases hresolution with
    | error hu => exact .reject ctx h (l.text_render h) _
    | ok hc =>
      cases hc
      refine .tell_bind _ _ ?_
      refine (applyAll_runs ctx.descend _ hadjusters).bind fun final _ hfinal => ?_
      exact .pure (.ok hfinal)

theorem resolveNamedFunction_runs (h : l.node m n) (ctx : Context α)
    (hargs : List.Forall₂ l.Means args args') :
    l.Runs l.Resolves (resolveNamedFunction m args ctx) (resolveNamedFunction n args' ctx) := by
  unfold resolveNamedFunction
  rw [← l.name_eq h]
  refine .ite (fun _ => resolveFunction_runs h .rgb ctx hargs) fun _ => ?_
  refine .ite (fun _ => resolveFunction_runs h .hsl ctx hargs) fun _ => ?_
  refine .ite (fun _ => resolveFunction_runs h .hwb ctx hargs) fun _ => ?_
  refine .ite (fun _ => resolveCall_runs h ctx hargs) fun _ => ?_
  exact .reject ctx h (l.text_render h) _

theorem resolveNode_runs (h : l.node m n) (ctx : Context α)
    (hargs : List.Forall₂ l.Means args args') :
    l.Runs l.Resolves (resolveNode m args ctx) (resolveNode n args' ctx) := by
  refine .ite (fun _ => .reject ctx h (l.text_outline h) _) fun _ => ?_
  rw [← l.kind_eq h]
  cases hkind : m.kind with
  | function => exact resolveNamedFunction_runs h ctx hargs
  | word => exact resolveWord_runs h hkind ctx
  | _ => exact .reject ctx h (l.text_render h) _

variable [LightCurve α]

theorem applyNode_runs (h : l.node m n) (c : Color α) (ctx : Context α)
    (hargs : List.Forall₂ l.Means args args') :
    l.Runs l.Resolves (Adjuster.applyNode m args c ctx) (Adjuster.applyNode n args' c ctx) := by
  have hname : Text.lower m.value = Text.lower n.value := l.name_eq h
  have hfull : Adjuster.fullName m.value = Adjuster.fullName n.value := by
    rw [Adjuster.fullName, Adjuster.fullName, hname]
  unfold Adjuster.applyNode Node.isFunction
  rw [← l.kind_eq h, ← hfull]
  refine .ite (fun _ => ?_) fun _ => .reject ctx h (l.text_render h) _
  dsimp only
  cases Adjuster.ofName? (Adjuster.fullName m.value) with
  | none =>
    refine (unknownName_runs ctx hname _).bind fun complaint _ hcomplaint => ?_
    cases hcomplaint
    exact .reject ctx h (l.text_value h) _
  | some adjuster =>
    refine (firstOf_runs ctx adjuster.patterns hargs).bind fun values _ hvalues => ?_
    cases hvalues
    cases values with
    | none => exact unfit_runs h adjuster _ ctx hargs
    | some values =>
      refine (Runs.ofArithmetic (adjuster.change c values)).bind fun changed _ hchanged => ?_
      cases hchanged
      cases changed with
      | some adjusted => exact .pure (.ok rfl)
      | none => exact unfit_runs h adjuster _ ctx hargs

end

/-! ## Meaning -/

variable [LightCurve α]

/-- Alike nodes have arguments that mean the same, if alike ones among them do. -/
theorem forall₂_means {ms ns : List Node} (h : List.Forall₂ l.node ms ns)
    (hmeans : ∀ m ∈ ms, ∀ n, l.node m n → l.Means (meaning m : Argument α) (meaning n)) :
    List.Forall₂ l.Means (ms.map (meaning (α := α))) (ns.map meaning) := by
  induction h with
  | nil => exact .nil
  | cons hmn _ ih =>
    obtain ⟨hm, hms⟩ := List.forall_mem_cons.mp hmeans
    exact .cons (hm _ hmn) (ih hms)

/-- Alike nodes mean the same. -/
theorem means_meaning (m : Node) : ∀ n, l.node m n → l.Means (meaning m : Argument α) (meaning n) := by
  induction m using Node.induction_on_arguments with
  | step m ih =>
    intro n h
    have hargs := forall₂_means (α := α) (l.arguments h) ih
    refine ⟨by rwa [meaning_node, meaning_node], fun ctx => ?_, fun c ctx => ?_⟩
    · have hcolor := resolveNode_runs h ctx hargs
      rwa [← resolveColor_eq, ← resolveColor_eq] at hcolor
    · have hadjust := applyNode_runs h c ctx hargs
      rwa [← applyAdjuster_eq, ← applyAdjuster_eq] at hadjust

theorem resolveColorMod_runs (h : l.node m n) (ctx : Context α) :
    l.Runs l.Resolves (resolveColorMod m ctx) (resolveColorMod n ctx) := by
  rw [resolveColorMod_eq, resolveColorMod_eq]
  exact resolveCall_runs h ctx (forall₂_means (l.arguments h) fun m _ => means_meaning m)

end NodeLikeness

end ColorMod
