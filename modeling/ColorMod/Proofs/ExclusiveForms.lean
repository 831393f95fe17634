import Mathlib.Data.List.Zip
import ColorMod.Scalar.Binary64
import ColorMod.Proofs.Forms
import ColorMod.Proofs.ReadColors

/-!
# Forms that exclude each other

A component takes nodes of few shapes (`Component.shapes`).  Two patterns exclude each other when
they differ in length, or when some place takes one shape of node in the one and another in the
other.  The patterns of every table do, in pairs, so their order never matters.

* `Pattern.not_matches_of_excludes`: no arguments match both of two such patterns.
* `Pattern.firstOf_perm`: the first match among such patterns, in any order of them.
* `Pattern.outcome_firstOf_iff`: what is found among them is what any of them finds.
* `Pattern.tables_unordered`: both for the tables of the color functions and of the adjusters.
-/

namespace ColorMod

open Run

variable {α : Type} [Scalar α]

/-! ## Shapes of nodes -/

/-- What components tell nodes apart by. -/
inductive Node.Shape where
  | number
  | percentage
  | degrees
  | plus
  | minus
  | times
  | slash
  | comma
  | word
  | other
  deriving DecidableEq, Repr

/-- The shape of a number is in its unit, that of an operator in its text. -/
def Node.shape (n : Node) : Shape :=
  match n.kind with
  | .number =>
    match Text.lower n.unit with
    | "" => .number
    | "%" => .percentage
    | "deg" => .degrees
    | _ => .other
  | .operator =>
    match n.value with
    | "+" => .plus
    | "-" => .minus
    | "*" => .times
    | "/" => .slash
    | _ => .other
  | .comma => .comma
  | .word => .word
  | _ => .other

def Operator.shape : Operator → Node.Shape
  | add => .plus
  | subtract => .minus
  | multiply => .times

/-- The shapes of the nodes that a component takes.  A color may be of any shape. -/
def Component.shapes : Component → List Node.Shape
  | number | rgbNumber => [.number]
  | percentage => [.percentage]
  | hue => [.number, .degrees]
  | alpha | channelValue | rgbValue => [.number, .percentage]
  | plusMinus => [.plus, .minus]
  | times => [.times]
  | plusMinusTimes => [.plus, .minus, .times]
  | slash => [.slash]
  | comma => [.comma]
  | colorSpace | hexColor => [.word]
  | color =>
    [.number, .percentage, .degrees, .plus, .minus, .times, .slash, .comma, .word, .other]

section

variable {n : Node}

theorem Node.shape_of_isNumber (h : n.isNumber) : n.shape = .number := by
  obtain ⟨hkind, hunit⟩ := Bool.and_eq_true_iff.mp h
  rw [shape, beq_iff_eq.mp hkind, beq_iff_eq.mp hunit]
  rfl

theorem Node.shape_of_isPercentage (h : n.isPercentage) : n.shape = .percentage := by
  obtain ⟨hkind, hunit⟩ := Bool.and_eq_true_iff.mp h
  rw [shape, beq_iff_eq.mp hkind, beq_iff_eq.mp hunit]
  rfl

theorem Node.shape_of_isHue (h : n.isHue) : n.shape = .number ∨ n.shape = .degrees := by
  obtain ⟨hkind, hunit⟩ := Bool.and_eq_true_iff.mp h
  rw [shape, beq_iff_eq.mp hkind]
  rcases List.mem_cons.mp (List.contains_iff_mem.mp hunit) with hunit | hunit
  · exact .inl (by rw [hunit]; rfl)
  · exact .inr (by rw [List.mem_singleton.mp hunit]; rfl)

theorem Node.shape_of_isSlash (h : n.isSlash) : n.shape = .slash := by
  obtain ⟨hkind, hvalue⟩ := Bool.and_eq_true_iff.mp h
  rw [shape, beq_iff_eq.mp hkind, beq_iff_eq.mp hvalue]
  rfl

theorem Node.shape_of_isComma (h : n.isComma) : n.shape = .comma := by
  rw [shape, beq_iff_eq.mp (h : (n.kind == .comma) = true)]

theorem Node.shape_of_kind_word (h : n.kind = .word) : n.shape = .word := by
  rw [shape, h]

theorem Node.shape_of_ofNode? {allowed : List Operator} {op : Operator}
    (h : Operator.ofNode? n allowed = some op) : n.shape ∈ allowed.map Operator.shape := by
  refine List.mem_map.mpr ⟨op, Component.mem_of_ofNode? h, ?_⟩
  unfold Operator.ofNode? at h
  split at h
  · next hkind =>
    have hvalue := List.find?_some h
    rw [shape, hkind, ← beq_iff_eq.mp hvalue]
    cases op <;> rfl
  · cases h

end

/-! ## What components read -/

namespace Component

variable {component : Component} {n : Node}

/-- The number that the component finds in a node. -/
def numberIn? : Component → Node → Option α
  | number, n => number? n
  | percentage, n => percentage? n
  | hue, n => hue? n
  | alpha, n | channelValue, n => alpha? n
  | rgbValue, n => rgbValue? n
  | rgbNumber, n => rgbNumber? n
  | _, _ => none

/-- The operators that the component finds. -/
def operators : Component → List Operator
  | plusMinus => [.add, .subtract]
  | times => [.multiply]
  | plusMinusTimes => [.add, .subtract, .multiply]
  | _ => []

/-- The node is the separator that the component wants. -/
def separates : Component → Node → Bool
  | slash, n => n.isSlash
  | comma, n => n.isComma
  | _, _ => false

section

variable (arg : Argument α) (ctx : Context α)

theorem read_of_isNumeric (h : component.isNumeric) :
    component.read arg ctx = pure (.ofOption .number (component.numberIn? arg.node)) := by
  cases component <;> first | rfl | cases h

theorem read_of_isOperator (h : component.isOperator) : component.read arg ctx =
    pure (.ofOption .operator (Operator.ofNode? arg.node component.operators)) := by
  cases component <;> first | rfl | cases h

theorem read_of_isSeparator (h : component.isSeparator) : component.read arg ctx =
    pure (if component.separates arg.node then .separator else .unfit) := by
  cases component <;> first | rfl | cases h

end

theorem isNumber_of_number? {x : α} (h : number? n = some x) : n.isNumber := by
  unfold number? at h
  split at h
  · assumption
  · cases h

theorem isPercentage_of_percentage? {x : α} (h : percentage? n = some x) : n.isPercentage := by
  unfold percentage? at h
  split at h
  · assumption
  · cases h

theorem isHue_of_hue? {x : α} (h : hue? n = some x) : n.isHue := by
  unfold hue? at h
  split at h
  · assumption
  · cases h

/-- A number stands in a node of the shapes of the component. -/
theorem shape_mem_of_numberIn? {x : α} (h : component.numberIn? n = some x) :
    n.shape ∈ component.shapes := by
  have hnumber : n.isNumber → ∀ shapes, n.shape ∈ .number :: shapes := fun h _ => by
    rw [Node.shape_of_isNumber h]
    exact List.mem_cons_self
  have hpercentage : n.isPercentage → n.shape ∈ [.number, .percentage] := fun h => by
    rw [Node.shape_of_isPercentage h]
    decide
  cases component with
  | number => exact hnumber (isNumber_of_number? h) _
  | percentage =>
    rw [Node.shape_of_isPercentage (isPercentage_of_percentage? h)]
    decide
  | hue => rcases Node.shape_of_isHue (isHue_of_hue? h) with h | h <;> rw [h] <;> decide
  | rgbNumber =>
    obtain ⟨y, hy, -⟩ := Option.map_eq_some_iff.mp h
    exact hnumber (isNumber_of_number? hy) _
  | alpha | channelValue | rgbValue =>
    by_cases hunit : n.isNumber
    · exact hnumber hunit _
    · exact hpercentage (isPercentage_of_percentage? ((if_neg hunit).symm.trans h))
  | _ => cases h

theorem kind_of_resolveHex {ctx : Context α} {c : Color α}
    (h : (resolveHex n ctx).outcome = .ok (.ok c)) : n.kind = .word := by
  by_contra hkind
  unfold resolveHex at h
  rw [if_neg hkind] at h
  exact ctx.reject_ne_ok _ _ _ c h

omit [Scalar α] in
theorem exists_of_ofOption_ne_unfit {β : Type} {wrap : β → Value α} {found? : Option β}
    (h : Reading.ofOption wrap found? ≠ .unfit) : ∃ b, found? = some b := by
  cases found? with
  | none => exact absurd rfl h
  | some b => exact ⟨b, rfl⟩

/-- A component takes nodes of its shapes only. -/
theorem shape_mem_of_read {arg : Argument α} {ctx : Context α} {reading : Reading α}
    (h : (component.read arg ctx).outcome = .ok reading) (hfit : reading ≠ .unfit) :
    arg.node.shape ∈ component.shapes := by
  have hnumeric : component.isNumeric → arg.node.shape ∈ component.shapes := by
    intro hnumeric
    rw [read_of_isNumeric _ _ hnumeric] at h
    cases h
    obtain ⟨x, hx⟩ := exists_of_ofOption_ne_unfit hfit
    exact shape_mem_of_numberIn? hx
  have hoperator : component.isOperator →
      arg.node.shape ∈ component.operators.map Operator.shape := by
    intro hoperator
    rw [read_of_isOperator _ _ hoperator] at h
    cases h
    obtain ⟨op, hop⟩ := exists_of_ofOption_ne_unfit hfit
    exact Node.shape_of_ofNode? hop
  have hseparator : component.isSeparator → component.separates arg.node := by
    intro hseparator
    rw [read_of_isSeparator _ _ hseparator] at h
    cases h
    by_contra hnot
    exact hfit (if_neg hnot)
  cases component with
  | plusMinus | times | plusMinusTimes => exact hoperator rfl
  | slash => exact List.mem_singleton.mpr (Node.shape_of_isSlash (hseparator rfl))
  | comma => exact List.mem_singleton.mpr (Node.shape_of_isComma (hseparator rfl))
  | colorSpace =>
    cases h
    obtain ⟨space, hspace⟩ := exists_of_ofOption_ne_unfit hfit
    refine List.mem_singleton.mpr (Node.shape_of_kind_word ?_)
    by_contra hkind
    rw [Node.colorSpace?, if_neg hkind] at hspace
    cases hspace
  | hexColor =>
    obtain ⟨resolved, hresolved, h⟩ := outcome_bind_eq_ok_iff.mp h
    cases h
    cases resolved with
    | error u => exact absurd rfl hfit
    | ok c => exact List.mem_singleton.mpr (Node.shape_of_kind_word (kind_of_resolveHex hresolved))
  | color => cases arg.node.shape <;> decide
  | _ => exact hnumeric rfl

/-- Only a color has to be resolved to be read quietly. -/
theorem exists_read_eq_pure (hcolor : component ≠ .color) (arg : Argument α) (ctx : Context α) :
    ∃ reading, component.read arg ctx.quiet = pure reading := by
  cases component with
  | color => exact absurd rfl hcolor
  | hexColor =>
    rw [read, resolveHex]
    split <;> exact ⟨_, rfl⟩
  | _ => exact ⟨_, rfl⟩

end Component

/-! ## Patterns that exclude each other -/

namespace Pattern

/-- The patterns differ in length, or some place takes other shapes of nodes in the one than in the
other.  Whether a color can be read shows only when it is resolved, so none is among the places. -/
def Excludes (p q : Pattern) : Prop :=
  p.length ≠ q.length ∨ (.color ∉ p ∧ .color ∉ q) ∧
    ∃ place ∈ p.zip q, ∀ shape ∈ place.1.shapes, shape ∉ place.2.shapes

instance : DecidableRel Excludes := fun p q =>
  inferInstanceAs (Decidable (p.length ≠ q.length ∨ (.color ∉ p ∧ .color ∉ q) ∧
    ∃ place ∈ p.zip q, ∀ shape ∈ place.1.shapes, shape ∉ place.2.shapes))

/-- The arguments match the pattern. -/
def Matches (p : Pattern) (args : List (Argument α)) (ctx : Context α) : Prop :=
  ∃ values, (p.matches? args ctx).outcome = .ok (some values)

theorem Excludes.symm {p q : Pattern} (h : p.Excludes q) : q.Excludes p := by
  rcases h with h | ⟨⟨hp, hq⟩, place, hplace, hshapes⟩
  · exact .inl h.symm
  · refine .inr ⟨⟨hq, hp⟩, place.swap, ?_, fun shape h h' => hshapes shape h' h⟩
    rw [← List.zip_swap]
    exact List.mem_map_of_mem hplace

section

variable {p q : Pattern} {ps qs : List Pattern} {args : List (Argument α)} {ctx : Context α}
  {values : List (Value α)}

theorem length_eq_of_matches (h : p.Matches args ctx) : args.length = p.length := by
  obtain ⟨values, h⟩ := h
  by_contra hlength
  rw [matches?, if_neg hlength] at h
  cases h

theorem shapes_of_readAll (hlength : args.length = p.length)
    (h : (readAll ctx p args).outcome = .ok (some values)) :
    ∀ place ∈ p.zip args, place.2.node.shape ∈ place.1.shapes := by
  induction p generalizing args values with
  | nil => simp
  | cons component p ih =>
    cases args with
    | nil => simp
    | cons arg args =>
      have hrest := Nat.succ.inj hlength
      obtain ⟨reading, hreading, h⟩ := outcome_bind_eq_ok_iff.mp h
      rw [List.zip_cons_cons, List.forall_mem_cons]
      cases reading with
      | unfit => cases h
      | separator => exact ⟨Component.shape_mem_of_read hreading nofun, ih hrest h⟩
      | found v =>
        obtain ⟨found?, hfound, h⟩ := outcome_bind_eq_ok_iff.mp h
        cases found? with
        | none => cases h
        | some vs => exact ⟨Component.shape_mem_of_read hreading nofun, ih hrest hfound⟩

/-- Arguments that match a pattern have, place by place, the shapes that it takes. -/
theorem shapes_of_matches (h : p.Matches args ctx) :
    ∀ place ∈ p.zip args, place.2.node.shape ∈ place.1.shapes := by
  have hlength := length_eq_of_matches h
  obtain ⟨values, h⟩ := h
  rw [matches?, if_pos hlength] at h
  exact shapes_of_readAll hlength h

/-- No arguments match both of two patterns that exclude each other. -/
theorem not_matches_of_excludes (h : p.Excludes q) {ctx' : Context α}
    (hp : p.Matches args ctx) : ¬q.Matches args ctx' := by
  intro hq
  rcases h with h | ⟨-, place, hplace, hshapes⟩
  · exact h ((length_eq_of_matches hp).symm.trans (length_eq_of_matches hq))
  · -- The arguments are as many as the places, so there is one in the place that tells them apart.
    obtain ⟨i, hi⟩ := List.mem_iff_getElem?.mp hplace
    obtain ⟨hip, hiq⟩ := List.getElem?_zip_eq_some.mp hi
    obtain ⟨arg, harg⟩ : ∃ arg, args[i]? = some arg := by
      have hlt := (List.getElem?_eq_some_iff.mp hip).1
      rw [← length_eq_of_matches hp] at hlt
      exact ⟨args[i], List.getElem?_eq_getElem hlt⟩
    have hmem : ∀ {c : Component} {r : Pattern}, r[i]? = some c → (c, arg) ∈ r.zip args :=
      fun hc => List.mem_iff_getElem?.mpr ⟨i, List.getElem?_zip_eq_some.mpr ⟨hc, harg⟩⟩
    exact hshapes _ (shapes_of_matches hp _ (hmem hip)) (shapes_of_matches hq _ (hmem hiq))

/-! ## The order of patterns -/

/-- Without colors to resolve, a pattern is tried quietly and gives an answer. -/
theorem exists_readAll_eq_pure (hcolor : .color ∉ p) (args : List (Argument α)) (ctx : Context α) :
    ∃ found?, readAll ctx.quiet p args = pure found? := by
  induction p generalizing args with
  | nil => cases args <;> exact ⟨_, rfl⟩
  | cons component p ih =>
    rw [List.mem_cons, not_or] at hcolor
    cases args with
    | nil => exact ⟨_, rfl⟩
    | cons arg args =>
      obtain ⟨reading, hreading⟩ := Component.exists_read_eq_pure (Ne.symm hcolor.1) arg ctx
      obtain ⟨found?, hfound⟩ := ih hcolor.2 args
      rw [readAll, hreading, pure_bind]
      cases reading with
      | unfit => exact ⟨_, rfl⟩
      | separator => exact ⟨_, hfound⟩
      | found value =>
        dsimp only
        rw [hfound, pure_bind]
        exact ⟨_, rfl⟩

theorem exists_matches?_eq_pure (hcolor : .color ∉ p) (args : List (Argument α))
    (ctx : Context α) : ∃ found?, p.matches? args ctx.quiet = pure found? := by
  rw [matches?]
  split
  · exact exists_readAll_eq_pure hcolor args ctx
  · exact ⟨none, rfl⟩

theorem exists_firstOf_eq_pure (hcolor : ∀ p ∈ ps, .color ∉ p) (args : List (Argument α))
    (ctx : Context α) : ∃ found?, firstOf ps args ctx = pure found? := by
  induction ps with
  | nil => exact ⟨none, rfl⟩
  | cons p ps ih =>
    obtain ⟨hfirst, hrest⟩ := List.forall_mem_cons.mp hcolor
    obtain ⟨found?, hfound⟩ := exists_matches?_eq_pure hfirst args ctx
    rw [firstOf, hfound, pure_bind]
    cases found? with
    | none => exact ih hrest
    | some values => exact ⟨some values, rfl⟩

/-- Of two patterns that exclude each other at least one is passed over without a trace. -/
theorem matches?_eq_none_or (h : p.Excludes q) (args : List (Argument α)) (ctx : Context α) :
    p.matches? args ctx.quiet = pure none ∨ q.matches? args ctx.quiet = pure none := by
  by_cases hlength : p.length = q.length
  · obtain ⟨hp, hq⟩ := (h.resolve_left (absurd hlength)).1
    obtain ⟨found?, hfound⟩ := exists_matches?_eq_pure hp args ctx
    obtain ⟨found?', hfound'⟩ := exists_matches?_eq_pure hq args ctx
    cases found? with
    | none => exact .inl hfound
    | some values =>
      cases found?' with
      | none => exact .inr hfound'
      | some values' =>
        have hp : p.Matches args ctx.quiet := ⟨values, by rw [hfound]; rfl⟩
        have hq : q.Matches args ctx.quiet := ⟨values', by rw [hfound']; rfl⟩
        exact absurd hq (not_matches_of_excludes h hp)
  · by_cases hargs : args.length = p.length
    · exact .inr (if_neg (hargs ▸ hlength))
    · exact .inl (if_neg hargs)

theorem firstOf_cons_of_none (h : p.matches? args ctx.quiet = pure none) :
    firstOf (p :: ps) args ctx = firstOf ps args ctx := by
  rw [firstOf, h, pure_bind]

theorem firstOf_cons_congr (h : firstOf ps args ctx = firstOf qs args ctx) :
    firstOf (p :: ps) args ctx = firstOf (p :: qs) args ctx := by
  rw [firstOf, firstOf, h]

/-- The first match among patterns that exclude each other is the same in any order of them. -/
theorem firstOf_perm (hperm : qs.Perm ps) (h : ps.Pairwise Excludes) :
    firstOf qs args ctx = firstOf ps args ctx := by
  induction hperm with
  | nil => rfl
  | cons p _ ih => exact firstOf_cons_congr (ih h.tail)
  | swap p q rest =>
    -- One of the two is passed over, so the other one comes first in both orders.
    obtain ⟨hfirst, -⟩ := List.pairwise_cons.mp h
    rcases matches?_eq_none_or (hfirst q List.mem_cons_self) args ctx with hnone | hnone
    · rw [firstOf_cons_of_none hnone]
      exact firstOf_cons_congr (firstOf_cons_of_none hnone)
    · rw [firstOf_cons_of_none hnone]
      exact (firstOf_cons_congr (firstOf_cons_of_none hnone)).symm
  | trans _ hperm ih ih' =>
    have hmiddle := (hperm.pairwise_iff fun hpq => hpq.symm).mpr h
    exact (ih hmiddle).trans (ih' h)

theorem exists_matches_of_firstOf (h : (firstOf ps args ctx).outcome = .ok (some values)) :
    ∃ p ∈ ps, (p.matches? args ctx.quiet).outcome = .ok (some values) := by
  induction ps with
  | nil => cases h
  | cons p ps ih =>
    obtain ⟨found?, hfound, h⟩ := outcome_bind_eq_ok_iff.mp h
    cases found? with
    | none =>
      obtain ⟨q, hq, hmatch⟩ := ih h
      exact ⟨q, List.mem_cons_of_mem _ hq, hmatch⟩
    | some vs =>
      cases h
      exact ⟨p, List.mem_cons_self, hfound⟩

/-- Among patterns that exclude each other, the one that matches need not be looked for in order. -/
theorem outcome_firstOf_iff (h : ps.Pairwise Excludes) :
    (firstOf ps args ctx).outcome = .ok (some values) ↔
      ∃ p ∈ ps, (p.matches? args ctx.quiet).outcome = .ok (some values) := by
  refine ⟨exists_matches_of_firstOf, ?_⟩
  rintro ⟨p, hp, hmatch⟩
  have hfirst := List.perm_cons_erase hp
  rw [← firstOf_perm hfirst.symm h]
  exact outcome_bind_eq_ok_iff.mpr ⟨some values, hmatch, rfl⟩

end

/-! ## Tables -/

/-- The tables of patterns: one for each color function and one for each adjuster. -/
inductive IsTable : List Pattern → Prop where
  | colorFunction (space : ColorSpace) : IsTable space.patterns
  | adjuster (adjuster : Adjuster) : IsTable adjuster.patterns

theorem IsTable.pairwise_excludes {patterns : List Pattern} (h : IsTable patterns) :
    patterns.Pairwise Excludes := by
  cases h with
  | colorFunction space => cases space <;> decide
  | adjuster adjuster =>
    cases adjuster with
    | channel channel => cases channel <;> decide
    | _ => decide

/-- Whatever the arguments are, at most one pattern of a table matches them, and the first match is
the same in any order of the table. -/
theorem tables_unordered {patterns : List Pattern} (htable : IsTable patterns)
    (args : List (Argument α)) (ctx : Context α) :
    (patterns.Pairwise fun p q => ¬(p.Matches args ctx ∧ q.Matches args ctx)) ∧
      ∀ permuted : List Pattern, permuted.Perm patterns →
        firstOf permuted args ctx = firstOf patterns args ctx := by
  have hexcludes := htable.pairwise_excludes
  refine ⟨hexcludes.imp ?_, fun permuted hperm => firstOf_perm hperm hexcludes⟩
  rintro p q h ⟨hp, hq⟩
  exact not_matches_of_excludes h hp hq

/-- `* 50%` matches the last pattern of its table, which comes first when the table is reversed. -/
theorem tables_unordered_timesHalf :
    let patterns := Adjuster.rgb.patterns
    let args : List (Argument Float) := meanings [.operator "*", .number "50" "%"]
    IsTable patterns ∧ patterns.reverse.Perm patterns ∧ ∀ ctx : Context Float,
      (patterns.Pairwise fun p q => ¬(p.Matches args ctx ∧ q.Matches args ctx)) ∧
      firstOf patterns.reverse args ctx = firstOf patterns args ctx ∧
      ∃ x, firstOf patterns args ctx = pure (some [.operator .multiply, .number x]) := by
  intro patterns args
  have htable : IsTable patterns := .adjuster .rgb
  refine ⟨htable, patterns.reverse_perm, fun ctx => ?_⟩
  obtain ⟨hone, hperm⟩ := tables_unordered htable args ctx
  exact ⟨hone, hperm _ patterns.reverse_perm, _, rfl⟩

end Pattern

end ColorMod
