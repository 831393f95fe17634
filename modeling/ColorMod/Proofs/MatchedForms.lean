import ColorMod.Scalar.Binary64
import ColorMod.Proofs.Forms

/-!
# After a match

Arguments are matched in one place and their values are used in another, by position.  The values of
a match are always what is used there (`IsChannels`, `Adjuster.Takes`), so nothing is complained
about after a match: a color function is a color, and an adjuster leads to a color or to a fault of
arithmetic.

* `isChannels_of_match`, `Adjuster.takes_of_match`: the values of a match.
* `outcome_resolveFunction_of_match`, `Adjuster.outcome_applyNode_of_match`: what becomes of them.
* `matched_values_used`: both for the tables of the color functions and of the adjusters.
-/

namespace ColorMod

open Run

variable {α : Type} [Scalar α] {args : List (Argument α)} {ctx : Context α}
  {values : List (Value α)}

/-! ## Color functions -/

section

variable {space : ColorSpace}

theorem isChannels_of_match
    (h : (Pattern.firstOf space.patterns args ctx).outcome = .ok (some values)) :
    IsChannels values := by
  obtain ⟨pattern, hpattern, hform⟩ := Pattern.exists_form_of_firstOf h
  exact isChannels_of_form hpattern hform

/-- A color function whose arguments match is a color. -/
theorem outcome_resolveFunction_of_match
    (h : (Pattern.firstOf space.patterns args ctx).outcome = .ok (some values)) (node : Node) :
    ∃ c, Color.ofValues? space values = some c ∧
      (resolveFunction space node args ctx).outcome = .ok (.ok c) := by
  obtain ⟨pattern, hpattern, hform⟩ := Pattern.exists_form_of_firstOf h
  obtain ⟨c, hc⟩ := exists_ofValues?_eq_some hpattern hform
  refine ⟨c, hc, ?_⟩
  rw [resolveFunction, outcome_bind_of_ok h, Option.bind_some, hc]
  rfl

end

/-! ## Adjusters -/

namespace Adjuster

variable {adjuster : Adjuster}

theorem takes_of_match
    (h : (Pattern.firstOf adjuster.patterns args ctx).outcome = .ok (some values)) :
    adjuster.Takes values := by
  obtain ⟨pattern, hpattern, hform⟩ := Pattern.exists_form_of_firstOf h
  exact takes_of_form hpattern hform

/-- An adjuster whose arguments match leads to a color, unless its channels cannot be computed. -/
theorem outcome_applyNode_of_match [LightCurve α]
    (h : (Pattern.firstOf adjuster.patterns args ctx).outcome = .ok (some values)) {node : Node}
    (hfunction : node.isFunction) (hname : ofName? (fullName node.value) = some adjuster)
    (c : Color α) :
    ∃ changed : Except ArithmeticFault (Color α), adjuster.change c values = some <$> changed ∧
      (applyNode node args c ctx).outcome = .ok <$> changed.mapError .arithmetic := by
  obtain ⟨changed, hchanged⟩ := exists_change_eq (takes_of_match h) c
  refine ⟨changed, hchanged, ?_⟩
  rw [applyNode, if_pos hfunction]
  simp only [hname]
  rw [outcome_bind_of_ok h]
  dsimp only
  rw [hchanged]
  cases changed <;> rfl

end Adjuster

/-! ## All tables -/

/-- Whatever the arguments are, what matches in the table of a color function is three numbers or
four, and what matches in the table of an adjuster is what the adjuster takes.  So neither has
anything to complain about after a match. -/
theorem matched_values_used [LightCurve α] (args : List (Argument α)) (ctx : Context α)
    (values : List (Value α)) :
    (∀ space : ColorSpace,
      (Pattern.firstOf space.patterns args ctx).outcome = .ok (some values) →
        IsChannels values ∧
        ∀ node, ∃ c, Color.ofValues? space values = some c ∧
          (resolveFunction space node args ctx).outcome = .ok (.ok c)) ∧
    ∀ adjuster : Adjuster,
      (Pattern.firstOf adjuster.patterns args ctx).outcome = .ok (some values) →
        adjuster.Takes values ∧
        ∀ (node : Node) (c : Color α), node.isFunction →
          Adjuster.ofName? (Adjuster.fullName node.value) = some adjuster →
          ∃ changed : Except ArithmeticFault (Color α),
            adjuster.change c values = some <$> changed ∧
            (Adjuster.applyNode node args c ctx).outcome =
              .ok <$> changed.mapError .arithmetic :=
  ⟨fun _ h => ⟨isChannels_of_match h, outcome_resolveFunction_of_match h⟩,
    fun _ h => ⟨Adjuster.takes_of_match h, fun _ c hfunction hname =>
      Adjuster.outcome_applyNode_of_match h hfunction hname c⟩⟩

/-- A minus with a hex color matches in the table of the adjuster, and three numbers and a
percentage with commas match in that of the color function. -/
theorem matched_values_used_minusHex :
    let ctx : Context Float := { policy := .raise, format := .legacy, maxDepth := 64, cutoff := 75 }
    let node := Node.function "RGB" [.operator "-", .word "#123"]
    let minusHex : List (Argument Float) := meanings [.operator "-", .word "#123"]
    let half : List (Argument Float) := meanings
      [.number "255", .comma, .number "0", .comma, .number "0", .comma, .number "50" "%"]
    node.isFunction ∧ Adjuster.ofName? (Adjuster.fullName node.value) = some .rgb ∧
    (∃ hex, (Pattern.firstOf Adjuster.rgb.patterns minusHex ctx).outcome =
        .ok (some [.operator .subtract, .color hex]) ∧
      Adjuster.rgb.Takes [.operator .subtract, .color hex] ∧
      ∃ changed : Except ArithmeticFault (Color Float),
        (Adjuster.applyNode node minusHex hex ctx).outcome = .ok <$> changed.mapError .arithmetic) ∧
    ∃ r g b alpha, (Pattern.firstOf ColorSpace.rgb.patterns half ctx).outcome =
        .ok (some [.number r, .number g, .number b, .number alpha]) ∧
      IsChannels [.number r, .number g, .number b, .number alpha] ∧
      ∃ c, (resolveFunction .rgb node half ctx).outcome = .ok (.ok c) := by
  intro ctx node minusHex half
  have hname : Adjuster.ofName? (Adjuster.fullName node.value) = some .rgb := by decide +kernel
  have hminusHex : ∃ hex, (Pattern.firstOf Adjuster.rgb.patterns minusHex ctx).outcome =
      .ok (some [.operator .subtract, .color hex]) := ⟨_, rfl⟩
  have hhalf : ∃ r g b alpha, (Pattern.firstOf ColorSpace.rgb.patterns half ctx).outcome =
      .ok (some [.number r, .number g, .number b, .number alpha]) := ⟨_, _, _, _, rfl⟩
  obtain ⟨hex, hminusHex⟩ := hminusHex
  obtain ⟨r, g, b, alpha, hhalf⟩ := hhalf
  refine ⟨rfl, hname, ⟨hex, hminusHex, ?_⟩, r, g, b, alpha, hhalf, ?_⟩
  · obtain ⟨htakes, happlied⟩ := (matched_values_used minusHex ctx _).2 .rgb hminusHex
    obtain ⟨changed, -, hchanged⟩ := happlied node hex rfl hname
    exact ⟨htakes, changed, hchanged⟩
  · obtain ⟨hchannels, hresolved⟩ := (matched_values_used half ctx _).1 .rgb hhalf
    obtain ⟨c, -, hc⟩ := hresolved node
    exact ⟨hchannels, c, hc⟩

end ColorMod
