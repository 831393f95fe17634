import ColorMod.Proofs.AlphaRuns
import ColorMod.Proofs.Exact
import ColorMod.Proofs.Forms
import ColorMod.Proofs.Likeness
import ColorMod.Proofs.Walks

/-!
# Seeds that are whole turns apart

The hue that a call starts from is stored as it is written, so that hues that are whole turns apart
start the same color from different numbers.  Adjusters wrap the difference away or carry it along
by whole turns, but for two kinds.  A product of the hue, and a mix in hsl or hwb, multiply it by
any number, and what is a part of a turn then leads to another color.

* `wholeTurns`: colors whose hues are whole turns apart.
* `Relates.endsAlike_adjusted`: one node, applied to two such colors.
* `Relates.endsAlike_or_comeApart`: a list of nodes.
* `replaceCall_of_turned_hue`: calls with such seeds have the same text, unless an adjuster leaves
  their hues a part of a turn apart.
-/

namespace ColorMod

open Scalar Run

/-! ## Whole turns -/

/-- Hues are alike when they are whole turns apart, and other channels when they are the same. -/
def wholeTurns : Likeness ℚ where
  Turn := ℤ
  still := 0
  channel := Eq
  hue k x y := y = x + 360 * k
  channel_refl _ := rfl
  hue_refl x := by simp
  clamp_eq h := congrArg clamp h
  rem_eq := by
    rintro k x _ rfl
    exact (rem_add_turns x k).symm
  channel_between := by
    rintro x _ y _ share rfl rfl
    rfl
  hue_between := by
    rintro k x _ y _ share rfl rfl
    unfold Color.between
    ring

theorem eq_of_channels {s t : Triple ℚ} {k : wholeTurns.Turn} (h : wholeTurns.Channels .rgb k s t) :
    s = t := by
  obtain ⟨r, g, b⟩ := s
  obtain ⟨r', g', b'⟩ := t
  obtain ⟨rfl, rfl, rfl⟩ : r = r' ∧ g = g' ∧ b = b' := ⟨h.first, h.second, h.third⟩
  rfl

/-- The colors are alike, or else stretching has left a part of a turn between their hues. -/
def AlikeUnless (stretched : Bool) (c d : Color ℚ) : Prop :=
  wholeTurns.Relates c d ∨ stretched ∧ ¬c.hue ≡ d.hue [PMOD 360]

/-- Colors that differ in their hue alone are alike, unless a part of a turn is between them. -/
theorem alikeUnless_ofChannels {space : ColorSpace} (hspace : space ≠ .rgb) {s t : Triple ℚ}
    (hsecond : s.second = t.second) (hthird : s.third = t.third) (alpha kept kept' : ℚ) :
    AlikeUnless true (.ofChannels space s alpha kept) (.ofChannels space t alpha kept') := by
  have hhue (u : Triple ℚ) (kept : ℚ) : (Color.ofChannels space u alpha kept).hue = u.first := by
    cases space with
    | rgb => exact absurd rfl hspace
    | hsl => rfl
    | hwb => rfl
  rw [AlikeUnless, hhue, hhue]
  refine or_iff_not_imp_right.mpr fun hmod => ?_
  obtain ⟨k, hk⟩ := AddCommGroup.modEq_iff_zsmul.mp (not_not.mp fun h => hmod ⟨rfl, h⟩)
  have hturn : wholeTurns.hue k s.first t.first := by
    change t.first = s.first + 360 * k
    rw [zsmul_eq_mul] at hk
    linarith
  have hfirst : wholeTurns.first space k s.first t.first := by
    cases space with
    | rgb => exact absurd rfl hspace
    | hsl => exact hturn
    | hwb => exact hturn
  refine ⟨k, rfl, ⟨hfirst, hsecond, hthird⟩, rfl, ?_⟩
  rw [hhue, hhue]
  exact hturn

/-! ## Adjusters -/

namespace Adjuster

/-- The adjuster multiplies the hue, or mixes it with another one. -/
def stretchesHue {α : Type} : Adjuster → List (Value α) → Bool
  | channel .hue, [.operator .multiply, .number _] => true
  | blend, [.color _, .number _, .space space]
  | blendAlpha, [.color _, .number _, .space space] => space ≠ .rgb
  | _, _ => false

/-- Turned hues lead to turned hues, unless they are multiplied. -/
theorem exists_turn_of_newValue? {values : List (Value ℚ)} (hvalues : IsAmount values)
    (hstretch : ¬(channel .hue).stretchesHue values) {x y x' y' : ℚ} {k : ℤ}
    (hxy : wholeTurns.hue k x y) (hx : newValue? x values = some x')
    (hy : newValue? y values = some y') : ∃ j, wholeTurns.hue j x' y' := by
  obtain rfl : y = x + 360 * k := hxy
  rcases hvalues with ⟨op, amount, rfl⟩ | ⟨amount, rfl⟩
  · obtain rfl : op.apply x amount = x' := Option.some.inj hx
    obtain rfl : op.apply (x + 360 * k) amount = y' := Option.some.inj hy
    cases op with
    | add => exact ⟨k, add_right_comm x (360 * (k : ℚ)) amount⟩
    | subtract => exact ⟨k, add_sub_right_comm x (360 * (k : ℚ)) amount⟩
    | multiply => exact absurd rfl hstretch
  · obtain rfl : amount = x' := Option.some.inj hx
    obtain rfl : amount = y' := Option.some.inj hy
    exact ⟨wholeTurns.still, wholeTurns.hue_refl amount⟩

end Adjuster

namespace Likeness.Relates

open Adjuster

variable {c d : Color ℚ} (h : wholeTurns.Relates c d)

include h

/-- Any two hues may be written. -/
theorem endsAlike_set_hue (x y : ℚ) :
    EndsAlike (AlikeUnless true) (c.set .hue x) (d.set .hue y) := by
  have halpha : c.alpha = d.alpha := h.alpha
  refine (h.endsAlike_channelsIn .hsl).bind fun s t hst => .ok ?_
  obtain ⟨k, -, hsecond, hthird⟩ := hst
  rw [halpha]
  have hhsl : ColorSpace.hsl ≠ .rgb := by decide
  exact alikeUnless_ofChannels hhsl (s := s.set x 0) (t := t.set y 0) hsecond hthird _ _ _

theorem endsAlike_mix_of_ne {space : ColorSpace} (hspace : space ≠ .rgb) (other : Color ℚ)
    (share : ℚ) (mixAlpha : Bool) : EndsAlike (AlikeUnless true)
      (c.mix other share space mixAlpha) (d.mix other share space mixAlpha) := by
  have halpha : c.alpha = d.alpha := h.alpha
  refine (h.endsAlike_inSpace space).bind fun start start' hstart => ?_
  refine EndsAlike.bind_left _ fun goal => .ok ?_
  obtain ⟨-, k, -, ⟨-, hsecond, hthird⟩, -, -⟩ := hstart
  rw [halpha]
  exact alikeUnless_ofChannels hspace
    (congrArg (Color.between share · goal.channels.second) hsecond)
    (congrArg (Color.between share · goal.channels.third) hthird) _ _ _

theorem endsAlike_changeChannel (ch : Channel) {values : List (Value ℚ)}
    (hvalues : IsAmount values) :
    EndsAlike (Option.Rel (AlikeUnless (Adjuster.stretchesHue (.channel ch) values)))
      (changeChannel ch c values) (changeChannel ch d values) := by
  obtain ⟨wanted, hwanted, hchange⟩ := exists_changeChannel_eq hvalues
  rw [hchange, hchange]
  by_cases hhue : ch = .hue
  · subst hhue
    refine h.endsAlike_get_hue.bind fun x y hxy => EndsAlike.map ?_ fun _ _ => .some
    cases hstretch : Adjuster.stretchesHue (.channel .hue) values with
    | true => exact h.endsAlike_set_hue _ _
    | false =>
      obtain ⟨k, hxy⟩ := hxy
      obtain ⟨j, hturn⟩ := exists_turn_of_newValue? hvalues (by simp [hstretch]) hxy (hwanted x)
        (hwanted y)
      have hstored : stored .hue (wanted x) = stored .hue (wanted y) := wholeTurns.rem_eq hturn
      rw [hstored]
      exact (h.endsAlike_set .hue _).mono fun _ _ => .inl
  · refine (h.endsAlike_get hhue).bind fun x y hxy => EndsAlike.map ?_ fun _ _ => .some
    obtain rfl : x = y := hxy
    exact (h.endsAlike_set ch _).mono fun _ _ => .inl

theorem endsAlike_mixWith (mixAlpha : Bool) {values : List (Value ℚ)} (hmix : IsMix values)
    {stretched : Bool}
    (hstretched : ∀ other share space, values = [.color other, .number share, .space space] →
      space ≠ .rgb → stretched) :
    EndsAlike (Option.Rel (AlikeUnless stretched)) (mixWith mixAlpha c values)
      (mixWith mixAlpha d values) := by
  obtain ⟨other, share, space, hvalues, hchange⟩ := exists_mixWith_eq hmix
  rw [hchange, hchange]
  by_cases hspace : space = .rgb
  · exact (h.endsAlike_mix (.refl _ other) share mixAlpha (.inl hspace)).map fun _ _ hab =>
      .some (.inl hab)
  · have hvalues := hvalues.resolve_right fun hrgb => hspace hrgb.1
    rw [hstretched other share space hvalues hspace]
    exact (h.endsAlike_mix_of_ne hspace other share mixAlpha).map fun _ _ => .some

/-- What an adjuster takes does the same to alike colors, unless it stretches the hue. -/
theorem endsAlike_change [LightCurve ℚ] {adjuster : Adjuster} {values : List (Value ℚ)}
    (htakes : adjuster.Takes values) :
    EndsAlike (Option.Rel (AlikeUnless (adjuster.stretchesHue values)))
      (adjuster.change c values) (adjuster.change d values) := by
  cases adjuster with
  | channel ch => cases htakes with | amount _ hamount => exact h.endsAlike_changeChannel ch hamount
  | rgb =>
    obtain ⟨wanted, hchange⟩ := exists_changeRgb_eq htakes
    change EndsAlike _ (changeRgb c values) (changeRgb d values)
    rw [hchange, hchange]
    have hwanted : EndsAlike Eq (c.rgb >>= wanted) (d.rgb >>= wanted) := by
      refine h.endsAlike_rgb.bind fun s t hst => ?_
      obtain rfl : s = t := eq_of_channels hst
      exact .refl (fun _ => rfl) _
    refine EndsAlike.map (hwanted.map fun s t (hst : s = t) => ?_) fun _ _ hab => .some (.inl hab)
    exact hst ▸ h.setRgb s
  | shade =>
    cases htakes with
    | shade share => exact (h.endsAlike_shade share).bind fun _ _ hab => .ok (.some (.inl hab))
  | tint =>
    cases htakes with
    | tint share => exact (h.endsAlike_tint share).bind fun _ _ hab => .ok (.some (.inl hab))
  | blend =>
    cases htakes with
    | blend hmix =>
      refine h.endsAlike_mixWith false hmix ?_
      rintro other share space rfl hspace
      exact decide_eq_true hspace
  | blendAlpha =>
    cases htakes with
    | blendAlpha hmix =>
      refine h.endsAlike_mixWith true hmix ?_
      rintro other share space rfl hspace
      exact decide_eq_true hspace
  | contrast =>
    cases htakes with
    | contrast share =>
      exact (h.endsAlike_contrast share).bind fun _ _ hab => .ok (.some (.inl hab))
    | mostContrast => exact (h.endsAlike_contrast 1).bind fun _ _ hab => .ok (.some (.inl hab))

end Likeness.Relates

section

variable [LightCurve ℚ]

/-! ## Nodes -/

/-- The node is an adjuster that multiplies the hue, or mixes it with another one. -/
def Node.stretchesHue (n : Node) (ctx : Context ℚ) : Bool :=
  match n.instruction? ctx with
  | .ok (some (adjuster, values)) => adjuster.stretchesHue values
  | _ => false

/-- Nodes lead colors that are alike to hues that a part of a turn is between: the first node does,
since it stretches the hue, or later ones do after it. -/
inductive ComeApart (ctx : Context ℚ) : Color ℚ → Color ℚ → List Node → Prop
  | here {c d c' d' n ns} : n.stretchesHue ctx → c.adjusted n ctx = .ok c' →
      d.adjusted n ctx = .ok d' → ¬c'.hue ≡ d'.hue [PMOD 360] → ComeApart ctx c d (n :: ns)
  | later {c d c' d' n ns} : c.adjusted n ctx = .ok c' → d.adjusted n ctx = .ok d' →
      wholeTurns.Relates c' d' → ComeApart ctx c' d' ns → ComeApart ctx c d (n :: ns)

theorem ComeApart.exists_stretchesHue {ctx : Context ℚ} {c d : Color ℚ} {nodes : List Node}
    (h : ComeApart ctx c d nodes) : ∃ n ∈ nodes, n.stretchesHue ctx := by
  induction h with
  | here hstretch _ _ _ => exact ⟨_, List.mem_cons_self, hstretch⟩
  | later _ _ _ _ ih =>
    obtain ⟨n, hn, hstretch⟩ := ih
    exact ⟨n, List.mem_cons_of_mem _ hn, hstretch⟩

namespace Likeness.Relates

variable {c d : Color ℚ} (h : wholeTurns.Relates c d)

include h

/-- A node leads alike colors to alike colors, unless it stretches the hue. -/
theorem endsAlike_adjusted (n : Node) (ctx : Context ℚ) :
    EndsAlike (AlikeUnless (n.stretchesHue ctx)) (c.adjusted n ctx) (d.adjusted n ctx) := by
  obtain ⟨passed, hadjusted⟩ := exists_adjusted_eq n ctx
  rw [hadjusted, hadjusted, Node.stretchesHue]
  have hpassed (stretched : Bool) :
      EndsAlike (AlikeUnless stretched) ((fun _ => c) <$> passed) ((fun _ => d) <$> passed) := by
    cases passed with
    | error fault => exact .error fault
    | ok resolved => exact .ok (.inl h)
  cases hn : n.instruction? ctx with
  | error fault => exact .error fault
  | ok instruction =>
    match instruction with
    | none => exact hpassed false
    | some (adjuster, values) =>
      obtain ⟨pattern, hpattern, hform⟩ :=
        Pattern.exists_form_of_firstOf (Node.firstOf_of_instruction? hn)
      refine (h.endsAlike_change (Adjuster.takes_of_form hpattern hform)).mapError.bind fun a b hab => ?_
      cases hab with
      | none => exact hpassed _
      | some hab => exact .ok hab

/-- Nodes lead alike colors to alike colors, unless one of them leaves a part of a turn between
them. -/
theorem endsAlike_or_comeApart (nodes : List Node) (ctx : Context ℚ) :
    EndsAlike wholeTurns.Relates (applyAdjusters c nodes ctx).outcome
        (applyAdjusters d nodes ctx).outcome ∨ ComeApart ctx c d nodes := by
  induction nodes generalizing c d with
  | nil => exact .inl (.ok h)
  | cons n ns ih =>
    rw [outcome_applyAdjusters_cons, outcome_applyAdjusters_cons]
    have hstep := h.endsAlike_adjusted n ctx
    generalize hc : c.adjusted n ctx = x at hstep ⊢
    generalize hd : d.adjusted n ctx = y at hstep ⊢
    cases hstep with
    | error fault => exact .inl (.error fault)
    | ok hab =>
      rcases hab with hab | ⟨hstretch, hne⟩
      · exact (ih hab).imp_right (.later hc hd hab)
      · exact .inr (.here hstretch hc hd hne)

end Likeness.Relates

/-! ## Calls -/

variable {call call' m m' : Node} {adjusters : List Node} {hue : ℚ}

/-- A call that starts from a hue resolves to what its adjusters make of the pure color. -/
theorem resolveColorMod_of_hue (hcall : call.arguments = m :: adjusters)
    (hm : Component.hue? m = some hue) (ctx : Context ℚ) (c : Color ℚ) :
    (resolveColorMod call ctx).outcome = .ok (.ok c) ↔ ¬ctx.tooDeep ∧
      (applyAdjusters (.ofChannels .hsl ⟨hue, 1, 0.5⟩ 1) adjusters ctx.descend).outcome =
        .ok c := by
  have hisHue : m.isHue := by
    by_contra hno
    rw [Component.hue?, if_neg hno] at hm
    cases hm
  rw [resolveColorMod_eq, hcall, List.map_cons, resolveCall, applyAdjusters, meanings_eq_map]
  split
  · next hdeep => exact iff_of_false (ctx.reject_ne_ok _ _ _ c) fun h => h.1 hdeep
  · next hdeep =>
    have hseed : resolveSeed (meaning m) ctx.descend =
        pure (.ok (.ofChannels .hsl ⟨hue, 1, 0.5⟩ 1)) := by
      rw [resolveSeed, meaning_node, if_pos hisHue, hm]
    rw [hseed, pure_bind, and_iff_right hdeep]
    constructor
    · intro h
      obtain ⟨_, -, h⟩ := outcome_bind_eq_ok_iff.mp h
      obtain ⟨_, hadjusters, h⟩ := outcome_bind_eq_ok_iff.mp h
      cases h
      exact hadjusters
    · intro h
      exact outcome_bind_eq_ok_iff.mpr ⟨(), rfl, outcome_bind_eq_ok_iff.mpr ⟨c, h, rfl⟩⟩

/-- A call with arguments has the text of the color that it resolves to, or no text. -/
theorem replaceCall_eq_word_iff (hcall : call.arguments ≠ []) {ctx : Context ℚ} {text : String} :
    (replaceCall call ctx).outcome = .ok (.word text) ↔
      ∃ c, (resolveColorMod call ctx).outcome = .ok (.ok c) ∧ c.toCss ctx.format = .ok text := by
  constructor
  · intro h
    cases replaces_of_replaceCall h with
    | color hc htext => exact ⟨_, hc, htext⟩
    | noColor => exact absurd rfl hcall
  · rintro ⟨c, hc, htext⟩
    refine outcome_bind_eq_ok_iff.mpr ⟨.ok c, hc, ?_⟩
    exact outcome_bind_eq_ok_iff.mpr ⟨text, outcome_ofArithmetic_eq_ok_iff.mpr htext, rfl⟩

/-- Calls that start from hues which are whole turns apart, with the same adjusters, resolve to
colors whose hues are whole turns apart, or both to none, and have the same text in every format.
Only a product of the hue, or a mix in hsl or hwb, can part them, where it leaves a part of a turn
between the hues. -/
theorem replaceCall_of_turned_hue {k : ℤ} (hcall : call.arguments = m :: adjusters)
    (hcall' : call'.arguments = m' :: adjusters) (hm : Component.hue? m = some hue)
    (hm' : Component.hue? m' = some (hue + 360 * k)) (ctx : Context ℚ) :
    ((∀ c, (resolveColorMod call ctx).outcome = .ok (.ok c) →
        ∃ d, (resolveColorMod call' ctx).outcome = .ok (.ok d) ∧ wholeTurns.Relates c d) ∧
      (∀ d, (resolveColorMod call' ctx).outcome = .ok (.ok d) →
        ∃ c, (resolveColorMod call ctx).outcome = .ok (.ok c) ∧ wholeTurns.Relates c d) ∧
      ∀ text, (replaceCall call ctx).outcome = .ok (.word text) ↔
        (replaceCall call' ctx).outcome = .ok (.word text)) ∨
    ¬ctx.tooDeep ∧ ComeApart ctx.descend (.ofChannels .hsl ⟨hue, 1, 0.5⟩ 1)
      (.ofChannels .hsl ⟨hue + 360 * k, 1, 0.5⟩ 1) adjusters := by
  have hseeds : wholeTurns.Relates (.ofChannels .hsl ⟨hue, 1, 0.5⟩ 1)
      (.ofChannels .hsl ⟨hue + 360 * k, 1, 0.5⟩ 1) :=
    ⟨k, rfl, ⟨rfl, rfl, rfl⟩, rfl, rfl⟩
  have hresolves := resolveColorMod_of_hue hcall hm ctx
  have hresolves' := resolveColorMod_of_hue hcall' hm' ctx
  refine or_iff_not_imp_right.mpr fun hapart => ?_
  have halike (hdeep : ¬ctx.tooDeep) := (hseeds.endsAlike_or_comeApart adjusters
    ctx.descend).resolve_right fun h => hapart ⟨hdeep, h⟩
  have hforth : ∀ c, (resolveColorMod call ctx).outcome = .ok (.ok c) →
      ∃ d, (resolveColorMod call' ctx).outcome = .ok (.ok d) ∧ wholeTurns.Relates c d := by
    intro c hc
    obtain ⟨hdeep, hc⟩ := (hresolves c).mp hc
    obtain ⟨d, hd, hcd⟩ := (halike hdeep).exists_right hc
    exact ⟨d, (hresolves' d).mpr ⟨hdeep, hd⟩, hcd⟩
  have hback : ∀ d, (resolveColorMod call' ctx).outcome = .ok (.ok d) →
      ∃ c, (resolveColorMod call ctx).outcome = .ok (.ok c) ∧ wholeTurns.Relates c d := by
    intro d hd
    obtain ⟨hdeep, hd⟩ := (hresolves' d).mp hd
    obtain ⟨c, hc, hcd⟩ := (halike hdeep).exists_left hd
    exact ⟨c, (hresolves c).mpr ⟨hdeep, hc⟩, hcd⟩
  refine ⟨hforth, hback, fun text => ?_⟩
  rw [replaceCall_eq_word_iff (hcall ▸ List.cons_ne_nil _ _),
    replaceCall_eq_word_iff (hcall' ▸ List.cons_ne_nil _ _)]
  constructor
  · rintro ⟨c, hc, htext⟩
    obtain ⟨d, hd, hcd⟩ := hforth c hc
    exact ⟨d, hd, (hcd.toCss_eq ctx.format).symm.trans htext⟩
  · rintro ⟨d, hd, htext⟩
    obtain ⟨c, hc, hcd⟩ := hback d hd
    exact ⟨c, hc, (hcd.toCss_eq ctx.format).trans htext⟩

end

/-- A call with a hue and adjusters. -/
def Node.callFromHue (hue : String) (adjusters : List Node) : Node :=
  .function colorModName (.number hue :: adjusters)

/-- `hue(+ 15) shade(20%)` -/
def Node.turnedShade : List Node :=
  [.function "hue" [.operator "+", .number "15"], .function "shade" [.number "20" "%"]]

/-- `blend(blue 50% hsl)` -/
def Node.blendOfHues : Node :=
  .function "blend" [.word "blue", .number "50" "%", .word "hsl"]

/-- Turned and shaded, 30 and 390 have the same text; a mix with blue parts 0 from 360. -/
theorem replaceCall_of_turned_hue_thirty :
    letI : LightCurve ℚ := ⟨id⟩
    let ctx : Context ℚ := { policy := .warn, format := .legacy, maxDepth := 64, cutoff := 75 }
    let written (call : Node) := (replaceCall call ctx).outcome.toOption.map Node.render
    (∀ text, (replaceCall (.callFromHue "30" Node.turnedShade) ctx).outcome = .ok (.word text) ↔
      (replaceCall (.callFromHue "390" Node.turnedShade) ctx).outcome = .ok (.word text)) ∧
    written (.callFromHue "390" Node.turnedShade) = some "rgb(204, 153, 0)" ∧
    written (.callFromHue "0" [Node.blendOfHues]) = some "hsl(120, 100%, 50%)" ∧
    written (.callFromHue "360" [Node.blendOfHues]) = some "hsl(300, 100%, 50%)" := by
  intro ctx written
  let inst : LightCurve ℚ := ⟨id⟩
  have hplain : ¬∃ n ∈ Node.turnedShade, n.stretchesHue ctx.descend := by decide +kernel
  have hm : Component.hue? (.number "30") = some (30 : ℚ) := by decide +kernel
  have hm' : Component.hue? (.number "390") = some (30 + 360 * (1 : ℤ) : ℚ) := by decide +kernel
  have hcall (hue : String) : (Node.callFromHue hue Node.turnedShade).arguments =
      .number hue :: Node.turnedShade := rfl
  rcases replaceCall_of_turned_hue (hcall "30") (hcall "390") hm hm' ctx with
    ⟨-, -, htexts⟩ | ⟨-, hapart⟩
  · exact ⟨htexts, by decide +kernel⟩
  · exact absurd hapart.exists_stretchesHue hplain

end ColorMod
