import ColorMod.Proofs.ExclusiveForms

/-!
# The grammar of the color functions

What a color function accepts is told apart from its patterns: what one node says
(`Node.SaysAmount` and those after it), how the arguments are arranged (`ColorSpace.Arranges`), and
which color they denote in this way (`ColorSpace.Denotes`).

* `Component.percentage?_eq_some_iff`, …: a component finds the number that the node says.
* `Pattern.outcome_matches?_iff`: what a pattern of numbers and separators gives.
* `ColorSpace.denotes_iff`: what some form of the function gives is the color that is denoted.
* `resolveColor_iff_denotes`: a color function resolves to the color that its arguments denote, and
  is refused when they denote none.
-/

namespace ColorMod

open Run

variable {α : Type} [Scalar α]

/-! ## What a node says -/

/-- The text spells a number, which is finite. -/
def Scalar.Spells (text : String) (x : α) : Prop :=
  ∃ numeral, Numeral.parse? text = some numeral ∧ ofNumeral numeral = x ∧ (value? x).isSome

namespace Node

/-- The node is a number with a given unit. -/
structure SaysAmount (n : Node) (unit : String) (x : α) : Prop where
  kind : n.kind = .number
  unit : n.unit = unit
  amount : Scalar.Spells n.value x

/-- A percentage says a share of one. -/
def SaysShare (n : Node) (x : α) : Prop :=
  ∃ amount, n.SaysAmount "%" amount ∧ x = amount / 100

/-- Red, green and blue go up to 255, unless they are percentages. -/
def SaysRgb (n : Node) (x : α) : Prop :=
  (∃ amount, n.SaysAmount "" amount ∧ x = amount / 255) ∨ n.SaysShare x

/-- A hue is in degrees, whether it says so or not. -/
structure SaysHue (n : Node) (x : α) : Prop where
  kind : n.kind = .number
  unit : n.unit = "" ∨ Text.lower n.unit = "deg"
  amount : Scalar.Spells n.value x

def SaysAlpha (n : Node) (x : α) : Prop :=
  n.SaysAmount "" x ∨ n.SaysShare x

end Node

/-! ## What the arguments denote -/

namespace ColorSpace

/-- The nodes say the channels of a color of the space, one by one. -/
def Says (space : ColorSpace) (nodes : Triple Node) (t : Triple α) : Prop :=
  match space with
  | .rgb =>
    nodes.first.SaysRgb t.first ∧ nodes.second.SaysRgb t.second ∧ nodes.third.SaysRgb t.third
  | .hsl | .hwb =>
    nodes.first.SaysHue t.first ∧ nodes.second.SaysShare t.second ∧ nodes.third.SaysShare t.third

/-- The arguments are three nodes and perhaps one for alpha: alpha comes after a slash, or all are
set apart by commas, which hwb does not allow. -/
inductive Arranges (space : ColorSpace) : Triple Node → Option Node → List Node → Prop where
  | spaces (a b c : Node) : Arranges space ⟨a, b, c⟩ none [a, b, c]
  | slash (a b c : Node) {slash : Node} (alpha : Node) (hslash : slash.isSlash) :
    Arranges space ⟨a, b, c⟩ (some alpha) [a, b, c, slash, alpha]
  | commas (hspace : space ≠ .hwb) (a b c : Node) {comma₁ comma₂ : Node}
    (hcomma₁ : comma₁.isComma) (hcomma₂ : comma₂.isComma) :
    Arranges space ⟨a, b, c⟩ none [a, comma₁, b, comma₂, c]
  | commasAlpha (hspace : space ≠ .hwb) (a b c alpha : Node) {comma₁ comma₂ comma₃ : Node}
    (hcomma₁ : comma₁.isComma) (hcomma₂ : comma₂.isComma) (hcomma₃ : comma₃.isComma) :
    Arranges space ⟨a, b, c⟩ (some alpha) [a, comma₁, b, comma₂, c, comma₃, alpha]

/-- Alpha is what its node says, and one without such a node. -/
def SaysAlpha (node? : Option Node) (alpha : α) : Prop :=
  match node? with
  | none => alpha = 1
  | some n => n.SaysAlpha alpha

/-- The arguments denote a color: its channels and its alpha, in their order. -/
def Denotes (space : ColorSpace) (args : List Node) (c : Color α) : Prop :=
  ∃ nodes alphaNode? t alpha, space.Arranges nodes alphaNode? args ∧ space.Says nodes t ∧
    SaysAlpha alphaNode? alpha ∧ c = .ofChannels space t alpha

variable {space : ColorSpace} {args : List Node}

/-- Arguments can be arranged in one way only. -/
theorem Arranges.unique {nodes nodes' : Triple Node} {alphaNode? alphaNode?' : Option Node}
    (h : space.Arranges nodes alphaNode? args) (h' : space.Arranges nodes' alphaNode?' args) :
    nodes = nodes' ∧ alphaNode? = alphaNode?' := by
  have hshapes : ∀ {n : Node}, n.isSlash → ¬n.isComma := fun hslash hcomma => by
    have := (Node.shape_of_isSlash hslash).symm.trans (Node.shape_of_isComma hcomma)
    cases this
  cases h with
  | spaces => cases h'; exact ⟨rfl, rfl⟩
  | slash a b c alpha hslash =>
    cases h' with
    | slash => exact ⟨rfl, rfl⟩
    | commas _ _ _ _ _ hcomma => exact absurd hcomma (hshapes hslash)
  | commas _ a b c _ hcomma =>
    cases h' with
    | slash _ _ _ _ hslash => exact absurd hcomma (hshapes hslash)
    | commas => exact ⟨rfl, rfl⟩
  | commasAlpha => cases h'; exact ⟨rfl, rfl⟩

/-- The same nodes denote the same color in every arrangement. -/
theorem Denotes.of_arranges {args' : List Node} {nodes : Triple Node} {alphaNode? : Option Node}
    {c : Color α} (hc : space.Denotes args c) (h : space.Arranges nodes alphaNode? args)
    (h' : space.Arranges nodes alphaNode? args') : space.Denotes args' c := by
  obtain ⟨nodes', alphaNode?', t, alpha, harranges, hsays, halpha, rfl⟩ := hc
  obtain ⟨rfl, rfl⟩ := harranges.unique h
  exact ⟨nodes', alphaNode?', t, alpha, h', hsays, halpha, rfl⟩

end ColorSpace

/-! ## What the components find -/

theorem Scalar.ofText?_eq_some_iff {text : String} {x : α} :
    ofText? text = some x ↔ Spells text x := by
  rw [ofText?, Option.bind_eq_bind, Option.bind_eq_some_iff]
  refine exists_congr fun numeral => and_congr_right fun _ => ?_
  constructor
  · intro h
    dsimp only at h
    split at h
    · next hfinite => cases h; exact ⟨rfl, hfinite⟩
    · cases h
  · rintro ⟨rfl, hfinite⟩
    exact if_pos hfinite

theorem Text.lowerFrom_ne_nil (before : List Char) (c : Char) (cs : List Char) :
    lowerFrom before (c :: cs) ≠ [] := by
  rw [lowerFrom]
  refine List.append_ne_nil_of_left_ne_nil ?_ _
  split
  · exact List.cons_ne_nil _ _
  · unfold lowerChar
    split
    · exact List.cons_ne_nil _ _
    · split <;> exact List.cons_ne_nil _ _

theorem Text.lower_eq_empty_iff {s : String} : lower s = "" ↔ s = "" := by
  refine ⟨fun h => ?_, fun h => by rw [h]; rfl⟩
  have hnil : lowerFrom [] s.toList = [] := String.ofList_injective h
  cases hs : s.toList with
  | nil => exact String.toList_eq_nil_iff.mp hs
  | cons c cs => exact absurd (hs ▸ hnil) (lowerFrom_ne_nil [] c cs)

namespace Component

variable {n : Node} {x : α}

theorem number?_eq_some_iff : number? n = some x ↔ n.SaysAmount "" x := by
  unfold number? Node.isNumber
  constructor
  · intro h
    split at h
    · next hnumber =>
      obtain ⟨hkind, hunit⟩ := Bool.and_eq_true_iff.mp hnumber
      exact ⟨beq_iff_eq.mp hkind, beq_iff_eq.mp hunit, Scalar.ofText?_eq_some_iff.mp h⟩
    · cases h
  · rintro ⟨hkind, hunit, hamount⟩
    rw [hkind, hunit]
    exact Scalar.ofText?_eq_some_iff.mpr hamount

theorem percentage?_eq_some_iff : percentage? n = some x ↔ n.SaysShare x := by
  unfold percentage? Node.isPercentage
  constructor
  · intro h
    split at h
    · next hpercentage =>
      obtain ⟨hkind, hunit⟩ := Bool.and_eq_true_iff.mp hpercentage
      obtain ⟨amount, hamount, rfl⟩ := Option.map_eq_some_iff.mp h
      exact ⟨amount, ⟨beq_iff_eq.mp hkind, beq_iff_eq.mp hunit,
        Scalar.ofText?_eq_some_iff.mp hamount⟩, rfl⟩
    · cases h
  · rintro ⟨amount, ⟨hkind, hunit, hamount⟩, rfl⟩
    rw [hkind, hunit]
    exact Option.map_eq_some_iff.mpr ⟨amount, Scalar.ofText?_eq_some_iff.mpr hamount, rfl⟩

theorem hue?_eq_some_iff : hue? n = some x ↔ n.SaysHue x := by
  have hunits : ["", "deg"].contains (Text.lower n.unit) ↔
      n.unit = "" ∨ Text.lower n.unit = "deg" := by
    rw [List.contains_iff_mem, List.mem_cons, List.mem_singleton, Text.lower_eq_empty_iff]
  unfold hue? Node.isHue
  constructor
  · intro h
    split at h
    · next hhue =>
      obtain ⟨hkind, hunit⟩ := Bool.and_eq_true_iff.mp hhue
      exact ⟨beq_iff_eq.mp hkind, hunits.mp hunit, Scalar.ofText?_eq_some_iff.mp h⟩
    · cases h
  · rintro ⟨hkind, hunit, hamount⟩
    rw [if_pos (Bool.and_eq_true_iff.mpr ⟨beq_iff_eq.mpr hkind, hunits.mpr hunit⟩)]
    exact Scalar.ofText?_eq_some_iff.mpr hamount

theorem rgbNumber?_eq_some_iff :
    rgbNumber? n = some x ↔ ∃ amount, n.SaysAmount "" amount ∧ x = amount / 255 := by
  rw [rgbNumber?, Option.map_eq_some_iff]
  refine exists_congr fun amount => ?_
  rw [number?_eq_some_iff, eq_comm (a := x)]

/-- Where a number without a unit and a percentage are taken, the unit tells which it is. -/
theorem ite_isNumber_eq_some_iff {number? : Option α} {p : Prop} (hnumber : number? = some x ↔ p)
    (hkind : p → n.isNumber) :
    (if n.isNumber then number? else percentage? n) = some x ↔ p ∨ n.SaysShare x := by
  split
  · next h =>
    rw [hnumber, or_iff_left]
    rintro ⟨amount, hshare, -⟩
    have hunit := beq_iff_eq.mp (Bool.and_eq_true_iff.mp h).2
    exact absurd (hunit.symm.trans hshare.unit) (by decide)
  · next h =>
    rw [percentage?_eq_some_iff, or_iff_right]
    exact fun hp => h (hkind hp)

theorem isNumber_of_saysAmount (h : n.SaysAmount "" x) : n.isNumber :=
  Bool.and_eq_true_iff.mpr ⟨beq_iff_eq.mpr h.kind, beq_iff_eq.mpr h.unit⟩

theorem alpha?_eq_some_iff : alpha? n = some x ↔ n.SaysAlpha x :=
  ite_isNumber_eq_some_iff number?_eq_some_iff isNumber_of_saysAmount

theorem rgbValue?_eq_some_iff : rgbValue? n = some x ↔ n.SaysRgb x :=
  ite_isNumber_eq_some_iff rgbNumber?_eq_some_iff fun ⟨_, h, _⟩ => isNumber_of_saysAmount h

theorem isNumeric_of_numberIn? {component : Component} (h : component.numberIn? n = some x) :
    component.isNumeric := by
  cases component <;> first | rfl | cases h

omit [Scalar α] in
theorem isSeparator_of_separates {component : Component} (h : component.separates n) :
    component.isSeparator := by
  cases component <;> first | rfl | cases h

omit [Scalar α] in
theorem not_isSeparator_of_isNumeric {component : Component} (h : component.isNumeric) :
    ¬component.isSeparator := by
  cases component <;> first | decide | cases h

end Component

/-! ## What the patterns find -/

namespace Pattern

/-- The nodes hold, place by place, the numbers and the separators that the pattern wants. -/
inductive Holds : Pattern → List Node → List α → Prop where
  | nil : Holds [] [] []
  | number {component : Component} {n : Node} {x : α} {p : Pattern} {ns : List Node} {xs : List α}
    (h : component.numberIn? n = some x) (hrest : Holds p ns xs) :
    Holds (component :: p) (n :: ns) (x :: xs)
  | separator {component : Component} {n : Node} {p : Pattern} {ns : List Node} {xs : List α}
    (h : component.separates n) (hrest : Holds p ns xs) : Holds (component :: p) (n :: ns) xs

/-- The pattern wants numbers and separators only. -/
def IsNumeric (p : Pattern) : Prop :=
  ∀ component ∈ p, component.isNumeric ∨ component.isSeparator

instance (p : Pattern) : Decidable p.IsNumeric :=
  inferInstanceAs (Decidable (∀ component ∈ p, component.isNumeric ∨ component.isSeparator))

variable {p : Pattern} {ns : List Node} {xs : List α}

theorem Holds.length_eq (h : p.Holds ns xs) : ns.length = p.length := by
  induction h with
  | nil => rfl
  | number _ _ ih => exact congrArg Nat.succ ih
  | separator _ _ ih => exact congrArg Nat.succ ih

theorem readAll_of_holds {args : List (Argument α)} (ctx : Context α)
    (h : p.Holds (args.map Argument.node) xs) :
    readAll ctx p args = pure (some (xs.map .number)) := by
  generalize hns : args.map Argument.node = ns at h
  induction h generalizing args with
  | nil =>
    rw [List.map_eq_nil_iff.mp hns]
    rfl
  | @number component n x p ns xs h _ ih =>
    obtain ⟨arg, args, rfl, rfl, hargs⟩ := List.map_eq_cons_iff.mp hns
    have hfinds : component.Finds arg x := fun ctx => by
      rw [Component.read_of_isNumeric _ _ (Component.isNumeric_of_numberIn? h), h]
      rfl
    exact readAll_of_finds hfinds (ih hargs)
  | @separator component n p ns xs h _ ih =>
    obtain ⟨arg, args, rfl, rfl, hargs⟩ := List.map_eq_cons_iff.mp hns
    have hread : component.read arg ctx = pure .separator := by
      rw [Component.read_of_isSeparator _ _ (Component.isSeparator_of_separates h), if_pos h]
    rw [readAll_of_separator hread]
    exact ih hargs

theorem holds_of_readAll {args : List (Argument α)} {values : List (Value α)} {ctx : Context α}
    (hp : p.IsNumeric) (hlength : args.length = p.length)
    (h : (readAll ctx p args).outcome = .ok (some values)) :
    ∃ xs, p.Holds (args.map Argument.node) xs ∧ values = xs.map .number := by
  induction p generalizing args values with
  | nil =>
    obtain rfl := List.length_eq_zero_iff.mp hlength
    cases h
    exact ⟨[], .nil, rfl⟩
  | cons component p ih =>
    obtain ⟨hfirst, hp⟩ := List.forall_mem_cons.mp hp
    cases args with
    | nil => cases hlength
    | cons arg args =>
      have hrest := Nat.succ.inj hlength
      obtain ⟨reading, hreading, h⟩ := outcome_bind_eq_ok_iff.mp h
      rcases hfirst with hnumeric | hseparator
      · rw [Component.read_of_isNumeric _ _ hnumeric] at hreading
        cases hx : (component.numberIn? arg.node : Option α) with
        | none =>
          rw [hx] at hreading
          cases hreading
          cases h
        | some x =>
          rw [hx] at hreading
          cases hreading
          obtain ⟨found?, hfound, h⟩ := outcome_bind_eq_ok_iff.mp h
          cases found? with
          | none => cases h
          | some vs =>
            cases h
            obtain ⟨xs, hxs, rfl⟩ := ih hp hrest hfound
            exact ⟨x :: xs, .number hx hxs, rfl⟩
      · rw [Component.read_of_isSeparator _ _ hseparator] at hreading
        by_cases hseparates : component.separates arg.node
        · rw [if_pos hseparates] at hreading
          cases hreading
          obtain ⟨xs, hxs, rfl⟩ := ih hp hrest h
          exact ⟨xs, .separator hseparates hxs, rfl⟩
        · rw [if_neg hseparates] at hreading
          cases hreading
          cases h

/-- A pattern of numbers and separators gives the numbers that the arguments hold. -/
theorem outcome_matches?_iff {args : List (Argument α)} {values : List (Value α)}
    {ctx : Context α} (hp : p.IsNumeric) :
    (p.matches? args ctx).outcome = .ok (some values) ↔
      ∃ xs, p.Holds (args.map Argument.node) xs ∧ values = xs.map .number := by
  rw [matches?]
  constructor
  · intro h
    split at h
    · next hlength => exact holds_of_readAll hp hlength h
    · cases h
  · rintro ⟨xs, hxs, rfl⟩
    have hlength : args.length = p.length := by rw [← hxs.length_eq, List.length_map]
    rw [if_pos hlength, readAll_of_holds ctx hxs]
    rfl

/-! ### Places of a pattern -/

section

variable {component : Component} {n : Node}

theorem Holds.exists_number (h : Holds (component :: p) ns xs) (hnumeric : component.isNumeric) :
    ∃ n ns' x xs', ns = n :: ns' ∧ xs = x :: xs' ∧ component.numberIn? n = some x ∧
      p.Holds ns' xs' := by
  cases h with
  | number hx hrest => exact ⟨_, _, _, _, rfl, rfl, hx, hrest⟩
  | separator hseparates =>
    have hseparator := Component.isSeparator_of_separates hseparates
    exact absurd hseparator (Component.not_isSeparator_of_isNumeric hnumeric)

theorem Holds.exists_separator (h : Holds (component :: p) ns xs)
    (hseparator : component.isSeparator) :
    ∃ n ns', ns = n :: ns' ∧ component.separates n ∧ p.Holds ns' xs := by
  cases h with
  | number hx =>
    have hnumeric := Component.isNumeric_of_numberIn? hx
    exact absurd hseparator (Component.not_isSeparator_of_isNumeric hnumeric)
  | separator hseparates hrest => exact ⟨_, _, rfl, hseparates, hrest⟩

end

end Pattern

/-! ## What the color functions find -/

namespace ColorSpace

variable {space : ColorSpace} {ns : List Node} {xs : List α} {p : Pattern}

theorem isNumeric_components (space : ColorSpace) : space.components.first.isNumeric ∧
    space.components.second.isNumeric ∧ space.components.third.isNumeric := by
  cases space <;> decide

theorem says_iff {nodes : Triple Node} {t : Triple α} : space.Says nodes t ↔
    space.components.first.numberIn? nodes.first = some t.first ∧
    space.components.second.numberIn? nodes.second = some t.second ∧
    space.components.third.numberIn? nodes.third = some t.third := by
  have hrgb : ∀ {n : Node} {x : α}, n.SaysRgb x ↔ Component.rgbValue.numberIn? n = some x :=
    Component.rgbValue?_eq_some_iff.symm
  have hhue : ∀ {n : Node} {x : α}, n.SaysHue x ↔ Component.hue.numberIn? n = some x :=
    Component.hue?_eq_some_iff.symm
  have hshare : ∀ {n : Node} {x : α}, n.SaysShare x ↔ Component.percentage.numberIn? n = some x :=
    Component.percentage?_eq_some_iff.symm
  cases space with
  | rgb => exact and_congr hrgb (and_congr hrgb hrgb)
  | hsl => exact and_congr hhue (and_congr hshare hshare)
  | hwb => exact and_congr hhue (and_congr hshare hshare)

theorem mem_patterns_iff : p ∈ space.patterns ↔
    p = [space.components.first, space.components.second, space.components.third, .slash, .alpha] ∨
    p = [space.components.first, space.components.second, space.components.third] ∨
    space ≠ .hwb ∧
      (p = [space.components.first, .comma, space.components.second, .comma,
        space.components.third, .comma, .alpha] ∨
      p = [space.components.first, .comma, space.components.second, .comma,
        space.components.third]) := by
  cases space <;> simp [patterns, components]

theorem isNumeric_of_mem_patterns (hp : p ∈ space.patterns) : p.IsNumeric := by
  have hall : ∀ space : ColorSpace, ∀ p ∈ space.patterns, p.IsNumeric := fun space => by
    cases space <;> decide
  exact hall space p hp

/-- Three components one after the other. -/
theorem exists_says_of_spaced (h : Pattern.Holds (space.components.first ::
    space.components.second :: space.components.third :: p) ns xs) :
    ∃ a b c t ns' xs', ns = a :: b :: c :: ns' ∧ xs = t.toList ++ xs' ∧ space.Says ⟨a, b, c⟩ t ∧
      p.Holds ns' xs' := by
  obtain ⟨hfirst, hsecond, hthird⟩ := space.isNumeric_components
  obtain ⟨a, _, x, _, rfl, rfl, ha, h⟩ := h.exists_number hfirst
  obtain ⟨b, _, y, _, rfl, rfl, hb, h⟩ := h.exists_number hsecond
  obtain ⟨c, ns', z, xs', rfl, rfl, hc, h⟩ := h.exists_number hthird
  exact ⟨a, b, c, ⟨x, y, z⟩, ns', xs', rfl, rfl, says_iff.mpr ⟨ha, hb, hc⟩, h⟩

/-- Three components with commas between them. -/
theorem exists_says_of_commas (h : Pattern.Holds (space.components.first :: .comma ::
    space.components.second :: .comma :: space.components.third :: p) ns xs) :
    ∃ a comma₁ b comma₂ c t ns' xs', ns = a :: comma₁ :: b :: comma₂ :: c :: ns' ∧
      xs = t.toList ++ xs' ∧ comma₁.isComma ∧ comma₂.isComma ∧ space.Says ⟨a, b, c⟩ t ∧
      p.Holds ns' xs' := by
  obtain ⟨hfirst, hsecond, hthird⟩ := space.isNumeric_components
  obtain ⟨a, _, x, _, rfl, rfl, ha, h⟩ := h.exists_number hfirst
  obtain ⟨comma₁, _, rfl, hcomma₁, h⟩ := h.exists_separator rfl
  obtain ⟨b, _, y, _, rfl, rfl, hb, h⟩ := h.exists_number hsecond
  obtain ⟨comma₂, _, rfl, hcomma₂, h⟩ := h.exists_separator rfl
  obtain ⟨c, ns', z, xs', rfl, rfl, hc, h⟩ := h.exists_number hthird
  exact ⟨a, comma₁, b, comma₂, c, ⟨x, y, z⟩, ns', xs', rfl, rfl, hcomma₁, hcomma₂,
    says_iff.mpr ⟨ha, hb, hc⟩, h⟩

/-- A separator and alpha after it. -/
theorem exists_saysAlpha_of_holds {component : Component} (hseparator : component.isSeparator)
    (h : Pattern.Holds [component, .alpha] ns xs) :
    ∃ separator n alpha, ns = [separator, n] ∧ xs = [alpha] ∧ component.separates separator ∧
      n.SaysAlpha alpha := by
  obtain ⟨separator, _, rfl, hseparates, h⟩ := h.exists_separator hseparator
  obtain ⟨n, _, alpha, _, rfl, rfl, halpha, h⟩ := h.exists_number rfl
  cases h
  exact ⟨separator, n, alpha, rfl, rfl, hseparates, Component.alpha?_eq_some_iff.mp halpha⟩

/-- The arguments denote the color that some form of the function gives. -/
theorem denotes_iff {c : Color α} : space.Denotes ns c ↔
    ∃ p ∈ space.patterns, ∃ xs, p.Holds ns xs ∧
      Color.ofValues? space (xs.map .number) = some c := by
  constructor
  · -- Each way to arrange the arguments is what one of the forms looks for.
    rintro ⟨nodes, alphaNode?, t, alpha, harranges, hsays, halpha, rfl⟩
    obtain ⟨hfirst, hsecond, hthird⟩ := says_iff.mp hsays
    cases harranges with
    | spaces =>
      obtain rfl := halpha
      exact ⟨_, mem_patterns_iff.mpr (.inr (.inl rfl)), _,
        .number hfirst (.number hsecond (.number hthird .nil)), rfl⟩
    | slash _ _ _ n hslash =>
      have halpha := Component.alpha?_eq_some_iff.mpr halpha
      exact ⟨_, mem_patterns_iff.mpr (.inl rfl), _,
        .number hfirst (.number hsecond (.number hthird
          (.separator hslash (.number halpha .nil)))), rfl⟩
    | commas hspace _ _ _ hcomma₁ hcomma₂ =>
      obtain rfl := halpha
      exact ⟨_, mem_patterns_iff.mpr (.inr (.inr ⟨hspace, .inr rfl⟩)), _,
        .number hfirst (.separator hcomma₁ (.number hsecond (.separator hcomma₂
          (.number hthird .nil)))), rfl⟩
    | commasAlpha hspace _ _ _ n hcomma₁ hcomma₂ hcomma₃ =>
      have halpha := Component.alpha?_eq_some_iff.mpr halpha
      exact ⟨_, mem_patterns_iff.mpr (.inr (.inr ⟨hspace, .inl rfl⟩)), _,
        .number hfirst (.separator hcomma₁ (.number hsecond (.separator hcomma₂
          (.number hthird (.separator hcomma₃ (.number halpha .nil)))))), rfl⟩
  · rintro ⟨p, hp, xs, hholds, hc⟩
    rcases mem_patterns_iff.mp hp with rfl | rfl | ⟨hspace, rfl | rfl⟩
    · obtain ⟨a, b, c, t, _, _, rfl, rfl, hsays, htail⟩ := exists_says_of_spaced hholds
      obtain ⟨slash, n, alpha, rfl, rfl, hslash, halpha⟩ := exists_saysAlpha_of_holds rfl htail
      cases hc
      exact ⟨_, _, t, alpha, .slash a b c n hslash, hsays, halpha, rfl⟩
    · obtain ⟨a, b, c, t, _, _, rfl, rfl, hsays, htail⟩ := exists_says_of_spaced hholds
      cases htail
      cases hc
      exact ⟨_, _, t, 1, .spaces a b c, hsays, rfl, rfl⟩
    · obtain ⟨a, comma₁, b, comma₂, c, t, _, _, rfl, rfl, hcomma₁, hcomma₂, hsays, htail⟩ :=
        exists_says_of_commas hholds
      obtain ⟨comma₃, n, alpha, rfl, rfl, hcomma₃, halpha⟩ := exists_saysAlpha_of_holds rfl htail
      cases hc
      exact ⟨_, _, t, alpha, .commasAlpha hspace a b c n hcomma₁ hcomma₂ hcomma₃, hsays, halpha,
        rfl⟩
    · obtain ⟨a, comma₁, b, comma₂, c, t, _, _, rfl, rfl, hcomma₁, hcomma₂, hsays, htail⟩ :=
        exists_says_of_commas hholds
      cases htail
      cases hc
      exact ⟨_, _, t, 1, .commas hspace a b c hcomma₁ hcomma₂, hsays, rfl, rfl⟩

end ColorSpace

/-! ## What the color functions resolve to -/

section

variable (space : ColorSpace) (node : Node) (args : List (Argument α)) (ctx : Context α)

/-- What is found among the forms is the color that the arguments denote. -/
theorem exists_firstOf_patterns_eq : ∃ found?,
    Pattern.firstOf space.patterns args ctx = pure found? ∧
      ∀ c, found?.bind (Color.ofValues? space) = some c ↔
        space.Denotes (args.map Argument.node) c := by
  have hcolor : ∀ p ∈ space.patterns, .color ∉ p := by cases space <;> decide
  obtain ⟨found?, hfound⟩ := Pattern.exists_firstOf_eq_pure hcolor args ctx
  have hvalues : ∀ values, found? = some values ↔
      ∃ p ∈ space.patterns, (p.matches? args ctx.quiet).outcome = .ok (some values) := by
    intro values
    rw [← Pattern.outcome_firstOf_iff (Pattern.IsTable.colorFunction space).pairwise_excludes,
      hfound]
    exact ⟨fun h => congrArg Except.ok h, fun h => Except.ok.inj h⟩
  refine ⟨found?, hfound, fun c => ?_⟩
  rw [Option.bind_eq_some_iff, ColorSpace.denotes_iff]
  constructor
  · rintro ⟨values, hsome, hc⟩
    obtain ⟨p, hp, hmatch⟩ := (hvalues values).mp hsome
    obtain ⟨xs, hholds, rfl⟩ :=
      (Pattern.outcome_matches?_iff (ColorSpace.isNumeric_of_mem_patterns hp)).mp hmatch
    exact ⟨p, hp, xs, hholds, hc⟩
  · rintro ⟨p, hp, xs, hholds, hc⟩
    refine ⟨xs.map .number, (hvalues _).mpr ⟨p, hp, ?_⟩, hc⟩
    exact (Pattern.outcome_matches?_iff (ColorSpace.isNumeric_of_mem_patterns hp)).mpr
      ⟨xs, hholds, rfl⟩

variable {space} {c : Color α}

theorem resolveFunction_of_denotes (h : space.Denotes (args.map Argument.node) c) :
    resolveFunction space node args ctx = pure (.ok c) := by
  obtain ⟨found?, hfound, hdenotes⟩ := exists_firstOf_patterns_eq space args ctx
  rw [resolveFunction, hfound, pure_bind, (hdenotes c).mpr h]

theorem resolveFunction_of_not_denotes
    (h : ¬∃ c : Color α, space.Denotes (args.map Argument.node) c) :
    resolveFunction space node args ctx = ctx.reject node node.render (.colorFunction space) := by
  obtain ⟨found?, hfound, hdenotes⟩ := exists_firstOf_patterns_eq space args ctx
  rw [resolveFunction, hfound, pure_bind]
  cases hc : found?.bind (Color.ofValues? space) with
  | none => rfl
  | some c => exact absurd ⟨c, (hdenotes c).mp hc⟩ h

end

section

variable [LightCurve α] {space : ColorSpace} {n : Node} {ctx : Context α}

theorem map_node_meaning (ns : List Node) :
    (ns.map (meaning (α := α))).map Argument.node = ns := by
  rw [List.map_map]
  exact List.map_id'' meaning_node ns

theorem resolveColor_of_not_denotes (hkind : n.kind = .function) (hname : space.Names n.name)
    (hdeep : ctx.tooDeep = false) (h : ¬∃ c : Color α, space.Denotes n.arguments c) :
    resolveColor n ctx = ctx.reject n n.render (.colorFunction space) := by
  rw [resolveColor_of_names hkind hname hdeep]
  refine resolveFunction_of_not_denotes n _ ctx ?_
  rwa [map_node_meaning]

theorem outcome_resolveColor_iff (hkind : n.kind = .function) (hname : space.Names n.name)
    (hdeep : ctx.tooDeep = false) (c : Color α) :
    (resolveColor n ctx).outcome = .ok (.ok c) ↔ space.Denotes n.arguments c := by
  have hof : ∀ d : Color α, space.Denotes n.arguments d → resolveColor n ctx = pure (.ok d) := by
    intro d hd
    rw [resolveColor_of_names hkind hname hdeep]
    refine resolveFunction_of_denotes n _ ctx ?_
    rwa [map_node_meaning]
  refine ⟨fun h => ?_, fun h => by rw [hof c h]; rfl⟩
  by_cases hsome : ∃ d : Color α, space.Denotes n.arguments d
  · obtain ⟨d, hd⟩ := hsome
    rw [hof d hd] at h
    cases h
    exact hd
  · rw [resolveColor_of_not_denotes hkind hname hdeep hsome] at h
    exact absurd h (ctx.reject_ne_ok _ _ _ c)

/-- A color function of any letter case resolves to the color that its arguments denote, and to no
other; it is refused when they denote none.  Two functions of a space whose arguments arrange the
same nodes resolve to the same color, whether they use spaces or commas. -/
theorem resolveColor_iff_denotes (hkind : n.kind = .function) (hname : space.Names n.name)
    (hdeep : ctx.tooDeep = false) :
    (∀ c : Color α, (resolveColor n ctx).outcome = .ok (.ok c) ↔ space.Denotes n.arguments c) ∧
    ((¬∃ c : Color α, space.Denotes n.arguments c) →
      resolveColor n ctx = ctx.reject n n.render (.colorFunction space)) ∧
    ∀ m : Node, m.kind = .function → space.Names m.name → ∀ nodes alphaNode?,
      space.Arranges nodes alphaNode? n.arguments → space.Arranges nodes alphaNode? m.arguments →
        ∀ c : Color α, (resolveColor m ctx).outcome = .ok (.ok c) ↔
          (resolveColor n ctx).outcome = .ok (.ok c) := by
  refine ⟨outcome_resolveColor_iff hkind hname hdeep,
    resolveColor_of_not_denotes hkind hname hdeep, ?_⟩
  intro m hkind' hname' nodes alphaNode? h h' c
  rw [outcome_resolveColor_iff hkind hname hdeep, outcome_resolveColor_iff hkind' hname' hdeep]
  exact ⟨fun hc => hc.of_arranges h' h, fun hc => hc.of_arranges h h'⟩

end

/-- `HSLA(120DEG, 50%, 25%, .5)` and `hsl(120DEG 50% 25% / .5)` are the same color. -/
theorem resolveColor_iff_denotes_hsla :
    let a : Node := .number "120" "DEG"
    let b : Node := .number "50" "%"
    let c : Node := .number "25" "%"
    let alpha : Node := .number ".5"
    let commas : Node := .function "HSLA" [a, .comma, b, .comma, c, .comma, alpha]
    let spaces : Node := .function "hsl" [a, .space, b, .space, c, .operator "/", alpha]
    let ctx : Context Float :=
      { policy := .raise, format := .hex, maxDepth := 5, cutoff := 1 }
    commas.kind = .function ∧ ColorSpace.hsl.Names commas.name ∧ ctx.tooDeep = false ∧
      ∃ color : Color Float, (resolveColor commas ctx).outcome = .ok (.ok color) ∧
        (resolveColor spaces ctx).outcome = .ok (.ok color) := by
  intro a b c alpha commas spaces ctx
  have hspace : ColorSpace.hsl ≠ .hwb := by decide
  have hname : ColorSpace.hsl.Names commas.name := .inr ⟨hspace, by decide +kernel⟩
  obtain ⟨hiff, -, hsame⟩ := @resolveColor_iff_denotes Float _ _ .hsl commas ctx rfl hname rfl
  have hdegrees : Text.lower a.unit = "deg" := by decide +kernel
  have hcommas : ColorSpace.hsl.Arranges ⟨a, b, c⟩ (some alpha) commas.arguments :=
    .commasAlpha hspace a b c alpha rfl rfl rfl
  have hspaces : ColorSpace.hsl.Arranges ⟨a, b, c⟩ (some alpha) spaces.arguments :=
    .slash a b c alpha rfl
  have hspells : ∀ text : String, (Scalar.ofText? text : Option Float).isSome →
      ∃ x : Float, Scalar.Spells text x := fun text h => by
    obtain ⟨x, hx⟩ := Option.isSome_iff_exists.mp h
    exact ⟨x, Scalar.ofText?_eq_some_iff.mp hx⟩
  obtain ⟨hue, hhue⟩ := hspells "120" rfl
  obtain ⟨saturation, hsaturation⟩ := hspells "50" rfl
  obtain ⟨lightness, hlightness⟩ := hspells "25" rfl
  obtain ⟨half, hhalf⟩ := hspells ".5" rfl
  have hsays : ColorSpace.hsl.Says ⟨a, b, c⟩ ⟨hue, saturation / 100, lightness / 100⟩ :=
    ⟨⟨rfl, .inr hdegrees, hhue⟩, ⟨_, ⟨rfl, rfl, hsaturation⟩, rfl⟩,
      ⟨_, ⟨rfl, rfl, hlightness⟩, rfl⟩⟩
  have hcolor := (hiff _).mpr ⟨_, _, _, half, hcommas, hsays, .inl ⟨rfl, rfl, hhalf⟩, rfl⟩
  have hname' : ColorSpace.hsl.Names spaces.name := ColorSpace.names_lower (.inl rfl)
  exact ⟨rfl, hname, rfl, _, hcolor, (hsame spaces rfl hname' _ _ hcommas hspaces _).mpr hcolor⟩

end ColorMod
