import Mathlib.Data.List.Forall2
import ColorMod.Proofs.AlphaChannel
import ColorMod.Proofs.Runs
import ColorMod.Resolution

/-!
# The values of a form

A pattern that matches gives one value for each of its components, and none for the separators among
them; each value is of the kind that its component finds (`Pattern.Form`).  So what the forms of a
function give is what that function can work with.

* `Pattern.exists_form_of_firstOf`: the values found are those of one of the forms.
* `isChannels_of_form`, `exists_ofValues?_eq_some`: the forms of the color functions give a color.
* `Adjuster.takes_of_form`: the forms of an adjuster give values that it can work with.
* `Adjuster.exists_change_eq`: such values lead to a color, if its channels can be computed.
-/

namespace ColorMod

open Run

variable {α : Type} [Scalar α]

namespace Component

/-- The component is there to set others apart. -/
def isSeparator : Component → Bool
  | slash | comma => true
  | _ => false

/-- The value is of the kind that the component finds. -/
def Gives : Component → Value α → Prop
  | slash, _ | comma, _ => False
  | plusMinus, v => ∃ op, v = .operator op ∧ op ≠ .multiply
  | times, v => v = .operator .multiply
  | plusMinusTimes, v => ∃ op, v = .operator op
  | colorSpace, v => ∃ space, v = .space space
  | color, v | hexColor, v => ∃ c, v = .color c
  | _, v => ∃ x, v = .number x

omit [Scalar α] in
theorem eq_some_of_ofOption_eq_found {β : Type} {wrap : β → Value α} {found? : Option β}
    {v : Value α} (h : Reading.ofOption wrap found? = .found v) : ∃ b, found? = some b ∧ v = wrap b := by
  cases found? with
  | none => cases h
  | some b => cases h; exact ⟨b, rfl, rfl⟩

omit [Scalar α] in
theorem exists_color_of_ofResolution_eq_found {resolved : Resolution α} {v : Value α}
    (h : ofResolution resolved = .found v) : ∃ c, v = .color c := by
  cases resolved with
  | error u => cases h
  | ok c => cases h; exact ⟨c, rfl⟩

theorem mem_of_ofNode? {n : Node} {allowed : List Operator} {op : Operator}
    (h : Operator.ofNode? n allowed = some op) : op ∈ allowed := by
  unfold Operator.ofNode? at h
  split at h
  · exact List.mem_of_find?_eq_some h
  · cases h

variable {component : Component} {arg : Argument α} {ctx : Context α}

theorem gives_of_read {v : Value α} (h : (component.read arg ctx).outcome = .ok (.found v)) :
    component.Gives v := by
  have hcolor : ∀ x : Run α (Resolution α),
      (x >>= fun resolved => pure (ofResolution resolved)).outcome = .ok (.found v) →
        ∃ c, v = .color c := by
    intro x h
    obtain ⟨resolved, -, h⟩ := outcome_bind_eq_ok_iff.mp h
    exact exists_color_of_ofResolution_eq_found (Except.ok.inj h)
  have hvalue : ∀ {β : Type} {wrap : β → Value α} {found? : Option β},
      (pure (Reading.ofOption wrap found?) : Run α _).outcome = .ok (.found v) →
        ∃ b, found? = some b ∧ v = wrap b := fun h =>
    eq_some_of_ofOption_eq_found (Except.ok.inj h)
  cases component with
  | slash => simp only [read] at h; split at h <;> cases h
  | comma => simp only [read] at h; split at h <;> cases h
  | color => exact hcolor _ h
  | hexColor => exact hcolor _ h
  | plusMinus =>
    obtain ⟨op, hop, rfl⟩ := hvalue h
    refine ⟨op, rfl, ?_⟩
    rintro rfl
    exact absurd (mem_of_ofNode? hop) (by decide)
  | times =>
    obtain ⟨op, hop, rfl⟩ := hvalue h
    rw [List.mem_singleton.mp (mem_of_ofNode? hop)]
    rfl
  | _ =>
    obtain ⟨b, -, rfl⟩ := hvalue h
    exact ⟨b, rfl⟩

theorem isSeparator_of_read (h : (component.read arg ctx).outcome = .ok .separator) :
    component.isSeparator := by
  have hcolor : ∀ x : Run α (Resolution α),
      (x >>= fun resolved => pure (ofResolution resolved)).outcome ≠ .ok .separator := by
    intro x h
    obtain ⟨resolved, -, h⟩ := outcome_bind_eq_ok_iff.mp h
    cases resolved <;> cases h
  have hvalue : ∀ {β : Type} (wrap : β → Value α) (found? : Option β),
      (pure (Reading.ofOption wrap found?) : Run α _).outcome ≠ .ok .separator := by
    intro β wrap found? h
    cases found? <;> cases h
  cases component with
  | slash => rfl
  | comma => rfl
  | color => exact absurd h (hcolor _)
  | hexColor => exact absurd h (hcolor _)
  | _ => exact absurd h (hvalue _ _)

omit [Scalar α] in
theorem not_isSeparator_of_gives {v : Value α} (h : component.Gives v) : ¬component.isSeparator := by
  cases component with
  | slash => exact h.elim
  | comma => exact h.elim
  | _ => decide

end Component

namespace Pattern

/-- The values are of the kinds that the pattern gives: one for each component but the
separators. -/
def Form (pattern : Pattern) (values : List (Value α)) : Prop :=
  List.Forall₂ Component.Gives (pattern.filter fun component => !component.isSeparator) values

variable {pattern : Pattern} {args : List (Argument α)} {ctx : Context α} {values : List (Value α)}

theorem form_of_readAll (hlength : args.length = pattern.length)
    (h : (readAll ctx pattern args).outcome = .ok (some values)) : pattern.Form values := by
  induction pattern generalizing args values with
  | nil =>
    obtain rfl := List.length_eq_zero_iff.mp hlength
    cases h
    exact .nil
  | cons component pattern ih =>
    cases args with
    | nil => cases hlength
    | cons arg args =>
      have hrest := Nat.succ.inj hlength
      obtain ⟨reading, hreading, h⟩ := outcome_bind_eq_ok_iff.mp h
      cases reading with
      | unfit => cases h
      | separator =>
        have hseparator := Component.isSeparator_of_read hreading
        unfold Form
        rw [List.filter_cons_of_neg (by simpa using hseparator)]
        exact ih hrest h
      | found v =>
        have hgives := Component.gives_of_read hreading
        obtain ⟨found?, hfound, h⟩ := outcome_bind_eq_ok_iff.mp h
        cases found? with
        | none => cases h
        | some vs =>
          cases h
          unfold Form
          rw [List.filter_cons_of_pos (by simpa using Component.not_isSeparator_of_gives hgives)]
          exact .cons hgives (ih hrest hfound)

/-- The values found are those of one of the forms. -/
theorem exists_form_of_firstOf {patterns : List Pattern}
    (h : (firstOf patterns args ctx).outcome = .ok (some values)) :
    ∃ pattern ∈ patterns, pattern.Form values := by
  induction patterns with
  | nil => cases h
  | cons pattern patterns ih =>
    obtain ⟨found?, hfound, h⟩ := outcome_bind_eq_ok_iff.mp h
    cases found? with
    | none =>
      obtain ⟨p, hp, hform⟩ := ih h
      exact ⟨p, List.mem_cons_of_mem _ hp, hform⟩
    | some vs =>
      cases h
      unfold matches? at hfound
      split at hfound
      · next hlength => exact ⟨pattern, List.mem_cons_self, form_of_readAll hlength hfound⟩
      · cases hfound

end Pattern

/-! ## Numbers -/

namespace Component

/-- The component finds numbers. -/
def isNumeric : Component → Bool
  | number | percentage | hue | alpha | channelValue | rgbValue | rgbNumber => true
  | _ => false

/-- The component finds operators. -/
def isOperator : Component → Bool
  | plusMinus | times | plusMinusTimes => true
  | _ => false

section

omit [Scalar α]

variable {component : Component} {v : Value α}

theorem exists_number_of_gives (hnumeric : component.isNumeric) (h : component.Gives v) :
    ∃ x, v = .number x := by
  cases component <;> first | exact h | cases hnumeric

theorem exists_operator_of_gives (hoperator : component.isOperator) (h : component.Gives v) :
    ∃ op, v = .operator op := by
  cases component with
  | plusMinus => exact h.imp fun op hop => hop.1
  | times => exact ⟨_, h⟩
  | plusMinusTimes => exact h
  | _ => cases hoperator

end

end Component

omit [Scalar α] in
theorem exists_numbers_of_gives {components : List Component} {values : List (Value α)}
    (hnumeric : ∀ component ∈ components, component.isNumeric)
    (h : List.Forall₂ Component.Gives components values) :
    ∃ xs : List α, xs.length = components.length ∧ values = xs.map .number := by
  induction h with
  | nil => exact ⟨[], rfl, rfl⟩
  | cons hgives _ ih =>
    obtain ⟨hfirst, hrest⟩ := List.forall_mem_cons.mp hnumeric
    obtain ⟨x, rfl⟩ := Component.exists_number_of_gives hfirst hgives
    obtain ⟨xs, hlength, rfl⟩ := ih hrest
    exact ⟨x :: xs, congrArg Nat.succ hlength, rfl⟩

/-! ## Color functions -/

/-- The values are the channels of a color and perhaps its alpha. -/
inductive IsChannels : List (Value α) → Prop where
  | three (a b c : α) : IsChannels [.number a, .number b, .number c]
  | four (a b c alpha : α) : IsChannels [.number a, .number b, .number c, .number alpha]

omit [Scalar α] in
/-- The forms of the color functions give channels. -/
theorem isChannels_of_form {space : ColorSpace} {pattern : Pattern}
    (hpattern : pattern ∈ space.patterns) {values : List (Value α)} (h : pattern.Form values) :
    IsChannels values := by
  have hforms : ∀ p ∈ space.patterns, ∀ q, q = p.filter (fun component => !component.isSeparator) →
      (∀ component ∈ q, component.isNumeric) ∧ (q.length = 3 ∨ q.length = 4) := by
    rintro p hp q rfl
    cases space <;> revert p <;> decide
  obtain ⟨hnumeric, hlength⟩ := hforms pattern hpattern _ rfl
  obtain ⟨xs, hxs, rfl⟩ := exists_numbers_of_gives hnumeric h
  rw [← hxs] at hlength
  match xs, hlength with
  | [a, b, c], _ => exact .three a b c
  | [a, b, c, alpha], _ => exact .four a b c alpha

/-- The forms of the color functions give a color. -/
theorem exists_ofValues?_eq_some {space : ColorSpace} {pattern : Pattern}
    (hpattern : pattern ∈ space.patterns) {values : List (Value α)} (h : pattern.Form values) :
    ∃ c, Color.ofValues? space values = some c := by
  cases isChannels_of_form hpattern h with
  | three a b c => exact ⟨_, rfl⟩
  | four a b c alpha => exact ⟨_, rfl⟩

/-! ## Adjusters -/

/-- The values are an amount, with an operator or without one. -/
def IsAmount (values : List (Value α)) : Prop :=
  (∃ op x, values = [.operator op, .number x]) ∨ ∃ x, values = [.number x]

/-- The pattern is the form of an amount. -/
def Pattern.isAmount : Pattern → Bool
  | [operator, amount] => operator.isOperator && amount.isNumeric
  | [amount] => amount.isNumeric
  | _ => false

namespace Adjuster

omit [Scalar α] in
theorem isAmount_of_form {pattern : Pattern} (hpattern : pattern.isAmount)
    {values : List (Value α)} (h : pattern.Form values) : IsAmount values := by
  have hnumeric : ∀ component : Component, component.isNumeric → !component.isSeparator := by
    intro component
    cases component <;> decide
  have hoperator : ∀ component : Component, component.isOperator → !component.isSeparator := by
    intro component
    cases component <;> decide
  unfold Pattern.Form at h
  match pattern, hpattern with
  | [operator, amount], hpattern =>
    obtain ⟨hop, hamount⟩ := Bool.and_eq_true_iff.mp hpattern
    simp only [List.filter, hoperator _ hop, hnumeric _ hamount] at h
    obtain _ | ⟨hfirst, _ | ⟨hsecond, ⟨⟩⟩⟩ := h
    obtain ⟨op, rfl⟩ := Component.exists_operator_of_gives hop hfirst
    obtain ⟨x, rfl⟩ := Component.exists_number_of_gives hamount hsecond
    exact .inl ⟨op, x, rfl⟩
  | [amount], hpattern =>
    simp only [List.filter, hnumeric _ hpattern] at h
    obtain _ | ⟨hfirst, ⟨⟩⟩ := h
    obtain ⟨x, rfl⟩ := Component.exists_number_of_gives hpattern hfirst
    exact .inr ⟨x, rfl⟩

omit [Scalar α] in
/-- The form of a channel is that of an amount. -/
theorem isAmount_of_channel {ch : Channel} {pattern : Pattern}
    (hpattern : pattern ∈ (channel ch).patterns) {values : List (Value α)}
    (h : pattern.Form values) : IsAmount values := by
  have hamount : ∀ p ∈ (channel ch).patterns, p.isAmount := by cases ch <;> decide
  exact isAmount_of_form (hamount pattern hpattern) h

omit [Scalar α] in
/-- A shade and a tint have a share. -/
theorem exists_number_of_form {adjuster : Adjuster} (hadjuster : adjuster = shade ∨ adjuster = tint)
    {pattern : Pattern} (hpattern : pattern ∈ adjuster.patterns) {values : List (Value α)}
    (h : pattern.Form values) : ∃ x, values = [.number x] := by
  obtain rfl : pattern = [.percentage] := by
    rcases hadjuster with rfl | rfl <;> exact List.mem_singleton.mp hpattern
  obtain _ | ⟨⟨x, rfl⟩, ⟨⟩⟩ := h
  exact ⟨x, rfl⟩

/-- The values are another color and a share, perhaps with the space to mix in. -/
inductive IsMix : List (Value α) → Prop where
  | plain (other : Color α) (share : α) : IsMix [.color other, .number share]
  | within (other : Color α) (share : α) (space : ColorSpace) :
      IsMix [.color other, .number share, .space space]

/-- The values that an adjuster can work with. -/
inductive Takes : Adjuster → List (Value α) → Prop where
  | amount (ch : Channel) {values : List (Value α)} (h : IsAmount values) :
      Takes (channel ch) values
  | channels (op : Operator) (hop : op ≠ .multiply) (r g b : α) :
      Takes rgb [.operator op, .number r, .number g, .number b]
  | color (op : Operator) (hop : op ≠ .multiply) (c : Color α) :
      Takes rgb [.operator op, .color c]
  | factor (x : α) : Takes rgb [.operator .multiply, .number x]
  | shade (x : α) : Takes shade [.number x]
  | tint (x : α) : Takes tint [.number x]
  | blend {values : List (Value α)} (h : IsMix values) : Takes blend values
  | blendAlpha {values : List (Value α)} (h : IsMix values) : Takes blendAlpha values
  | contrast (x : α) : Takes contrast [.number x]
  | mostContrast : Takes contrast []

section

omit [Scalar α]

variable {adjuster : Adjuster} {pattern : Pattern} {values : List (Value α)}

theorem takes_rgb_of_form (hpattern : pattern ∈ rgb.patterns) (h : pattern.Form values) :
    Takes rgb values := by
  simp only [patterns, List.mem_cons, List.not_mem_nil, or_false] at hpattern
  rcases hpattern with rfl | rfl | rfl | rfl
  · obtain _ | ⟨⟨op, rfl, hop⟩, _ | ⟨⟨r, rfl⟩, _ | ⟨⟨g, rfl⟩, _ | ⟨⟨b, rfl⟩, ⟨⟩⟩⟩⟩⟩ := h
    exact .channels op hop r g b
  · obtain _ | ⟨⟨op, rfl, hop⟩, _ | ⟨⟨r, rfl⟩, _ | ⟨⟨g, rfl⟩, _ | ⟨⟨b, rfl⟩, ⟨⟩⟩⟩⟩⟩ := h
    exact .channels op hop r g b
  · obtain _ | ⟨⟨op, rfl, hop⟩, _ | ⟨⟨c, rfl⟩, ⟨⟩⟩⟩ := h
    exact .color op hop c
  · obtain _ | ⟨rfl, _ | ⟨⟨x, rfl⟩, ⟨⟩⟩⟩ := h
    exact .factor x

theorem isMix_of_form (hpattern : pattern ∈ blend.patterns) (h : pattern.Form values) :
    IsMix values := by
  simp only [patterns, List.mem_cons, List.not_mem_nil, or_false] at hpattern
  rcases hpattern with rfl | rfl
  · obtain _ | ⟨⟨other, rfl⟩, _ | ⟨⟨share, rfl⟩, _ | ⟨⟨space, rfl⟩, ⟨⟩⟩⟩⟩ := h
    exact .within other share space
  · obtain _ | ⟨⟨other, rfl⟩, _ | ⟨⟨share, rfl⟩, ⟨⟩⟩⟩ := h
    exact .plain other share

/-- The forms of an adjuster give values that it can work with. -/
theorem takes_of_form (hpattern : pattern ∈ adjuster.patterns) (h : pattern.Form values) :
    adjuster.Takes values := by
  cases adjuster with
  | channel ch => exact .amount ch (isAmount_of_channel hpattern h)
  | rgb => exact takes_rgb_of_form hpattern h
  | shade =>
    obtain ⟨x, rfl⟩ := exists_number_of_form (.inl rfl) hpattern h
    exact .shade x
  | tint =>
    obtain ⟨x, rfl⟩ := exists_number_of_form (.inr rfl) hpattern h
    exact .tint x
  | blend => exact .blend (isMix_of_form hpattern h)
  | blendAlpha => exact .blendAlpha (isMix_of_form hpattern h)
  | contrast =>
    rcases List.mem_cons.mp hpattern with rfl | hempty
    · obtain _ | ⟨⟨x, rfl⟩, ⟨⟩⟩ := h
      exact .contrast x
    · obtain rfl := List.mem_singleton.mp hempty
      cases h
      exact .mostContrast

end

/-- An amount gives a channel a new value, from the present one or without it. -/
theorem exists_changeChannel_eq {values : List (Value α)} (h : IsAmount values) :
    ∃ wanted : α → α, (∀ present, newValue? present values = some (wanted present)) ∧
      ∀ ch (c : Color α), changeChannel ch c values =
        c.get ch >>= fun present => some <$> c.set ch (stored ch (wanted present)) := by
  rcases h with ⟨op, x, rfl⟩ | ⟨x, rfl⟩
  · refine ⟨(op.apply · x), fun _ => rfl, fun ch c => bind_congr fun present => ?_⟩
    exact bind_pure_comp some (c.set ch (stored ch (op.apply present x)))
  · refine ⟨fun _ => x, fun _ => rfl, fun ch c => bind_congr fun present => ?_⟩
    exact bind_pure_comp some (c.set ch (stored ch x))

/-- An operator gives the channels of rgb new values, from the present ones or without them. -/
theorem exists_changeRgb_eq {values : List (Value α)} (h : Takes rgb values) :
    ∃ wanted : Triple α → Except ArithmeticFault (Triple α), ∀ c : Color α,
      changeRgb c values = some <$> c.setRgb <$> (c.rgb >>= wanted) := by
  -- the channels are wanted first, and put into the color at the end
  have hlast : ∀ (x : Except ArithmeticFault (Triple α)) (c : Color α),
      (do return some (c.setRgb (← x))) = some <$> c.setRgb <$> x := by
    intro x c
    cases x <;> rfl
  cases h with
  | channels op hop r g b =>
    refine ⟨fun present => pure (present.zipWith op.apply ⟨r, g, b⟩), fun c => ?_⟩
    rw [← hlast, bind_assoc]
    rfl
  | color op hop other =>
    refine ⟨fun present => do return present.zipWith op.apply (← other.rgb), fun c => ?_⟩
    rw [← hlast, bind_assoc]
    refine bind_congr fun present => ?_
    rw [bind_assoc]
    rfl
  | factor x =>
    refine ⟨fun present => pure (present.map (Operator.multiply.apply · x)), fun c => ?_⟩
    rw [← hlast, bind_assoc]
    rfl

/-- A mix is done in rgb if no space is named. -/
theorem exists_mixWith_eq {values : List (Value α)} (h : IsMix values) : ∃ other share space,
    (values = [.color other, .number share, .space space] ∨
      space = .rgb ∧ values = [.color other, .number share]) ∧
    ∀ mixAlpha (c : Color α), mixWith mixAlpha c values =
      some <$> c.mix other share space mixAlpha := by
  cases h with
  | plain other share => exact ⟨other, share, .rgb, .inr ⟨rfl, rfl⟩, fun _ _ => bind_pure_comp ..⟩
  | within other share space =>
    exact ⟨other, share, space, .inl rfl, fun _ _ => bind_pure_comp ..⟩

/-- Values that an adjuster can work with lead to a color, if its channels can be computed. -/
theorem exists_change_eq [LightCurve α] {adjuster : Adjuster} {values : List (Value α)}
    (h : adjuster.Takes values) (c : Color α) :
    ∃ changed : Except ArithmeticFault (Color α), adjuster.change c values = some <$> changed := by
  cases adjuster with
  | channel ch =>
    cases h with
    | amount _ h =>
      obtain ⟨wanted, -, hchange⟩ := exists_changeChannel_eq h
      refine ⟨c.get ch >>= fun present => c.set ch (stored ch (wanted present)), ?_⟩
      rw [map_bind]
      exact hchange ch c
  | rgb =>
    obtain ⟨wanted, hchange⟩ := exists_changeRgb_eq h
    exact ⟨c.setRgb <$> (c.rgb >>= wanted), hchange c⟩
  | shade => cases h with | shade x => exact ⟨c.shade x, bind_pure_comp ..⟩
  | tint => cases h with | tint x => exact ⟨c.tint x, bind_pure_comp ..⟩
  | blend =>
    cases h with
    | blend h =>
      obtain ⟨other, share, space, -, hchange⟩ := exists_mixWith_eq h
      exact ⟨_, hchange false c⟩
  | blendAlpha =>
    cases h with
    | blendAlpha h =>
      obtain ⟨other, share, space, -, hchange⟩ := exists_mixWith_eq h
      exact ⟨_, hchange true c⟩
  | contrast =>
    cases h with
    | contrast x => exact ⟨c.contrast x, bind_pure_comp ..⟩
    | mostContrast => exact ⟨c.contrast 1, bind_pure_comp ..⟩

/-- The forms of an adjuster give values that change a color. -/
theorem change_ne_none [LightCurve α] {adjuster : Adjuster} {pattern : Pattern}
    (hpattern : pattern ∈ adjuster.patterns) {values : List (Value α)} (h : pattern.Form values)
    (c : Color α) : adjuster.change c values ≠ .ok none := by
  obtain ⟨changed, hchange⟩ := exists_change_eq (takes_of_form hpattern h) c
  rw [hchange]
  cases changed <;> exact nofun

end Adjuster

end ColorMod
