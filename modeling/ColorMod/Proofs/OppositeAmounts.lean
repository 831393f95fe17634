import ColorMod.Proofs.ChannelLaws
import ColorMod.Proofs.ExclusiveForms
import ColorMod.Proofs.Mixtures
import ColorMod.Proofs.SkippedAdjusters

/-!
# Opposite amounts in exact arithmetic

An adjuster that adds an amount and then subtracts it leaves the rgb channels and the alpha of a
color as they were.  No sum is clamped, however far it lies from what its channel can hold, and a
hue that is wrapped is wrapped back.

* `Pattern.exists_opposite`: amounts that can be added can be subtracted.
* `Color.Added`: a color with an amount added to one of its channels, or to all of rgb.
* `Adjuster.exists_takesBack`: one amount added and subtracted.
* `applyAdjusters_opposite`: two nodes, one after the other.
-/

namespace ColorMod

open Scalar Run

/-! ## Signed amounts -/

namespace Node

/-- The node calls an adjuster by its full name or a short one, with an operator before an amount.
Spaces are not counted among the amount. -/
structure Signed (n : Node) (name : String) (op : Operator) (amount : List Node) : Prop where
  isFunction : n.isFunction
  fullName_eq : Adjuster.fullName n.value = name
  arguments_eq : n.arguments = .operator op.symbol :: amount

theorem signed_function (name : String) (op : Operator) (amount : List Node) :
    (function name (.operator op.symbol :: amount)).Signed (Adjuster.fullName name) op
      (amount.filter fun n => n.kind != .space) where
  isFunction := rfl
  fullName_eq := rfl
  arguments_eq := by
    rw [arguments, function, children, inner, List.cons_append, List.tail_cons,
      List.dropLast_concat]
    exact List.filter_cons_of_pos rfl

end Node

section

variable {α : Type} [Scalar α]

namespace Component

variable {component : Component} {arg : Argument α} {ctx : Context α}

theorem read_operator {op : Operator} (hop : op ∈ component.operators)
    (harg : arg.node = .operator op.symbol) :
    component.read arg ctx = pure (.found (.operator op)) := by
  have hoperator : component.isOperator := by
    cases component with
    | plusMinus | times | plusMinusTimes => rfl
    | _ => cases hop
  have hnode : Operator.ofNode? (.operator op.symbol) component.operators = some op := by
    cases component with
    | plusMinus | times | plusMinusTimes => cases op <;> first | rfl | exact absurd hop (by decide)
    | _ => cases hop
  rw [read_of_isOperator arg ctx hoperator, harg, hnode]
  rfl

/-- What takes a plus is a color or takes a minus as well. -/
theorem signs_of_read (hcolor : component ≠ .color) (harg : arg.node = .operator "+")
    {reading : Reading α} (h : (component.read arg ctx).outcome = .ok reading)
    (hfit : reading ≠ .unfit) : .add ∈ component.operators ∧ .subtract ∈ component.operators := by
  have hshape := shape_mem_of_read h hfit
  rw [harg, show (Node.operator "+").shape = .plus from rfl] at hshape
  cases component with
  | color => exact absurd rfl hcolor
  | plusMinus | plusMinusTimes => decide
  | _ => exact absurd hshape (by decide)

end Component

namespace Pattern

variable {component : Component} {p : Pattern} {plus minus : Argument α}
  {args : List (Argument α)} {ctx : Context α} {values : List (Value α)}

theorem readAll_operator_iff {op : Operator} (hop : op ∈ component.operators) {arg : Argument α}
    (harg : arg.node = .operator op.symbol) :
    (readAll ctx (component :: p) (arg :: args)).outcome = .ok (some values) ↔
      ∃ amount, values = .operator op :: amount ∧
        (readAll ctx p args).outcome = .ok (some amount) := by
  rw [readAll, Component.read_operator hop harg, pure_bind, outcome_bind_eq_ok_iff]
  constructor
  · rintro ⟨found?, hfound, h⟩
    cases found? with
    | none => cases h
    | some amount => cases h; exact ⟨amount, rfl, hfound⟩
  · rintro ⟨amount, rfl, hamount⟩
    exact ⟨some amount, hamount, rfl⟩

/-- What matches after a plus matches after a minus. -/
theorem exists_opposite_match (hcolor : .color ∉ p) (hplus : plus.node = .operator "+")
    (hminus : minus.node = .operator "-")
    (h : (p.matches? (plus :: args) ctx).outcome = .ok (some values)) :
    ∃ amount, values = .operator .add :: amount ∧
      (p.matches? (minus :: args) ctx).outcome = .ok (some (.operator .subtract :: amount)) := by
  unfold matches? at h ⊢
  split at h
  · next hlength =>
    rw [if_pos (show (minus :: args).length = p.length from hlength)]
    cases p with
    | nil => cases hlength
    | cons component rest =>
      have hfirst : component ≠ .color := fun hc => hcolor (hc ▸ List.mem_cons_self)
      obtain ⟨reading, hreading, hrest⟩ := outcome_bind_eq_ok_iff.mp h
      have hfit : reading ≠ .unfit := by
        rintro rfl
        cases hrest
      obtain ⟨hadd, hsubtract⟩ := Component.signs_of_read hfirst hplus hreading hfit
      obtain ⟨amount, rfl, hamount⟩ := (readAll_operator_iff hadd hplus).mp h
      exact ⟨amount, rfl, (readAll_operator_iff hsubtract hminus).mpr ⟨amount, rfl, hamount⟩⟩
  · cases h

/-- An amount that a table reads after a plus is read after a minus. -/
theorem exists_opposite {patterns : List Pattern} (htable : IsTable patterns)
    (hcolor : ∀ p ∈ patterns, .color ∉ p) (hplus : plus.node = .operator "+")
    (hminus : minus.node = .operator "-")
    (h : (firstOf patterns (plus :: args) ctx).outcome = .ok (some values)) :
    ∃ amount, values = .operator .add :: amount ∧
      (firstOf patterns (minus :: args) ctx).outcome =
        .ok (some (.operator .subtract :: amount)) := by
  obtain ⟨p, hp, hmatch⟩ := exists_matches_of_firstOf h
  obtain ⟨amount, hvalues, hopposite⟩ := exists_opposite_match (hcolor p hp) hplus hminus hmatch
  exact ⟨amount, hvalues, (outcome_firstOf_iff htable.pairwise_excludes).mpr ⟨p, hp, hopposite⟩⟩

end Pattern

/-! ## Nodes with opposite amounts -/

variable [LightCurve α]

section

variable {n : Node} {ctx : Context α} {adjuster : Adjuster} {values : List (Value α)}
  {c d e : Color α}

theorem Node.instruction?_eq (hfun : n.isFunction)
    (hname : Adjuster.ofName? (Adjuster.fullName n.value) = some adjuster)
    (hfirst : (Pattern.firstOf adjuster.patterns (argumentMeanings n) ctx).outcome =
      .ok (some values)) : n.instruction? ctx = .ok (some (adjuster, values)) := by
  rw [instruction?, if_pos hfun, hname]
  dsimp only
  rw [hfirst]
  rfl

theorem Node.exists_instruction? (h : n.isInstruction ctx) :
    ∃ adjuster values, n.instruction? ctx = .ok (some (adjuster, values)) := by
  unfold isInstruction at h
  split at h
  · next instruction heq => exact ⟨instruction.1, instruction.2, heq⟩
  · cases h

/-- An adjuster that adds an amount is an adjuster that subtracts it. -/
theorem Node.Signed.exists_opposite {plus minus : Node} {name : String} {amount : List Node}
    (hplus : plus.Signed name .add amount) (hminus : minus.Signed name .subtract amount)
    (hcolor : ∀ p ∈ adjuster.patterns, .color ∉ p) (hname : Adjuster.ofName? name = some adjuster)
    (h : plus.isInstruction ctx) :
    ∃ values, plus.instruction? ctx = .ok (some (adjuster, .operator .add :: values)) ∧
      minus.instruction? ctx = .ok (some (adjuster, .operator .subtract :: values)) := by
  obtain ⟨adjuster', values, hinstruction⟩ := exists_instruction? h
  obtain ⟨-, hname'⟩ := ofName?_of_instruction? hinstruction
  rw [hplus.fullName_eq, hname] at hname'
  cases hname'
  have hread := firstOf_of_instruction? hinstruction
  have hargs : ∀ {n : Node} {op : Operator}, n.Signed name op amount → (argumentMeanings n :
      List (Argument α)) = meaning (.operator op.symbol) :: amount.map meaning := fun hn => by
    rw [argumentMeanings_eq, hn.arguments_eq, List.map_cons]
  rw [hargs hplus] at hread
  obtain ⟨values, rfl, hopposite⟩ := Pattern.exists_opposite (.adjuster adjuster) hcolor
    (meaning_node _) (meaning_node _) hread
  refine ⟨values, hinstruction, instruction?_eq hminus.isFunction ?_ ?_⟩
  · rw [hminus.fullName_eq, hname]
  · rw [hargs hminus]
    exact hopposite

/-- An instruction that changes a color is applied without a complaint. -/
theorem returns_applyAdjuster_of_change
    (h : n.instruction? ctx = .ok (some (adjuster, values)))
    (hchange : adjuster.change c values = .ok (some d)) :
    Returns (applyAdjuster c n ctx) (.ok d) [] := by
  obtain ⟨hfun, hname⟩ := Node.ofName?_of_instruction? h
  have hread : Returns (Pattern.firstOf adjuster.patterns (argumentMeanings n) ctx)
      (some values) [] := ⟨Node.firstOf_of_instruction? h,
    (Pattern.silent_firstOf adjuster.patterns n ctx).diagnostics_eq⟩
  rw [applyAdjuster_eq, ← argumentMeanings_eq, Adjuster.applyNode, if_pos hfun]
  dsimp only
  rw [hname]
  refine returns_bind_iff.mpr ⟨some values, [], [], hread, ?_, rfl⟩
  dsimp only
  rw [hchange]
  exact ⟨rfl, rfl⟩

theorem returns_applyAdjusters_nil (c : Color α) (ctx : Context α) :
    Returns (applyAdjusters c [] ctx) c [] :=
  ⟨rfl, rfl⟩

theorem returns_applyAdjusters_cons {ns : List Node}
    (h : Returns (applyAdjuster c n ctx) (.ok d) [])
    (hrest : Returns (applyAdjusters d ns ctx) e []) :
    Returns (applyAdjusters c (n :: ns) ctx) e [] :=
  returns_bind_iff.mpr ⟨.ok d, [], [], h, returns_tell_bind_iff.mpr hrest, rfl⟩

end

end

/-! ## Reading and writing exact channels -/

section

variable (channel : Channel) (x v : ℚ)

/-- What is stored after an amount is added is brought back by the opposite one. -/
theorem Adjuster.stored_add_sub :
    stored channel (stored channel (x + v) - v) = stored channel x := by
  unfold stored
  split
  · rw [rem_eq (x + v) 360, show x + v - 360 * (⌊(x + v) / 360⌋ : ℚ) - v =
      x + 360 * ((-⌊(x + v) / 360⌋ : ℤ) : ℚ) by push_cast; ring]
    exact rem_add_turns x _
  · exact add_sub_cancel_right x v

end

theorem rgbOfHsl_rem (hue s l : ℚ) : rgbOfHsl ⟨rem hue 360, s, l⟩ = rgbOfHsl ⟨hue, s, l⟩ := by
  have hrem : rem (rem hue 360) 360 = rem hue 360 :=
    rem_of_mem (rem_nonneg (by norm_num) hue) (rem_lt (by norm_num) hue)
  unfold rgbOfHsl
  dsimp only
  rw [hrem]

namespace Color

section

variable {channel : Channel} {space : ColorSpace} {place : Fin 3}

theorem get_ofChannels {α : Type} [Scalar α] (hhome : channel.home? = some (space, place))
    (t : Triple α) (alpha kept : α) :
    (ofChannels space t alpha kept).get channel = .ok (t.get place) := by
  have hspace : ¬(channel = .hue ∧ space = .rgb) := by
    rintro ⟨rfl, rfl⟩
    cases hhome
  exact get_of_channelsIn hspace hhome (channelsIn_space (ofChannels space t alpha kept))

theorem set_ofChannels {α : Type} [Scalar α] (hhome : channel.home? = some (space, place))
    (t : Triple α) (alpha kept x : α) : (ofChannels space t alpha kept).set channel x =
      .ok (ofChannels space (t.set x place) alpha (ofChannels space t alpha kept).hue) :=
  set_of_channelsIn hhome (channelsIn_space (ofChannels space t alpha kept)) x

/-- To store a channel again does not change the rgb channels. -/
theorem rgb_set_stored (hhome : channel.home? = some (space, place)) (t : Triple ℚ)
    (alpha kept : ℚ) : (ofChannels space (t.set (Adjuster.stored channel (t.get place)) place)
      alpha kept).rgb = (ofChannels space t alpha kept).rgb := by
  by_cases hhue : channel = .hue
  · subst hhue
    cases hhome
    exact rgbOfHsl_rem t.first t.second t.third
  · rw [Adjuster.stored, if_neg hhue, Triple.set_get]

variable {c : Color ℚ}

/-- A sound color has channels in each space, with its rgb channels. -/
theorem Sound.exists_channelsIn (h : c.Sound) (space : ColorSpace) :
    ∃ t, c.channelsIn space = .ok t ∧
      ∀ alpha kept, (ofChannels space t alpha kept).rgb = c.rgb := by
  by_cases hspace : space = c.space
  · subst hspace
    exact ⟨c.channels, c.channelsIn_space, Color.rgb_ofChannels rfl⟩
  · obtain ⟨t, ht, -⟩ := c.exists_channelsIn hspace
    refine ⟨t, ht, fun alpha kept => ?_⟩
    rw [← h.rgb_ofChannels hspace ht]
    exact Color.rgb_ofChannels (c := ofChannels space t c.alpha c.hue) rfl alpha kept

/-- A channel of a sound color is the entry at its place. -/
theorem Sound.get_of_channelsIn (h : c.Sound) (hhome : channel.home? = some (space, place))
    {t : Triple ℚ} (ht : c.channelsIn space = .ok t) : c.get channel = .ok (t.get place) := by
  by_cases hrgb : channel = .hue ∧ c.space = .rgb
  · obtain ⟨rfl, hspace⟩ := hrgb
    cases hhome
    have hown : c.rgb = .ok c.channels := by rw [Color.rgb, hspace]
    have hget : c.get .hue = .ok c.hue := by simp only [get, hspace]
    have hfirst := h.hue_ofChannels (by rw [hspace]; decide) ht hown
    rw [hget, ← h.hueOfRgb_eq hspace, ← hfirst]
    rfl
  · exact Color.get_of_channelsIn hrgb hhome ht

end

end Color

/-- The values are an amount for all of rgb: three numbers, or the channels of a color. -/
def RgbAmount (values : List (Value ℚ)) (s : Triple ℚ) : Prop :=
  values = [.number s.first, .number s.second, .number s.third] ∨
    ∃ other, values = [.color other] ∧ other.rgb = .ok s

/-- The color is the other one with an amount added to what the adjuster is about.  Nothing is
clamped, and only a hue is wrapped. -/
inductive Color.Added (c : Color ℚ) : Adjuster → List (Value ℚ) → Color ℚ → Prop where
  | channel {channel : Channel} {x v : ℚ} {d : Color ℚ} (hget : c.get channel = .ok x)
      (hsum : d.get channel = .ok (Adjuster.stored channel (x + v))) :
      Added c (.channel channel) [.number v] d
  | rgb {amount : List (Value ℚ)} {s t : Triple ℚ} {d : Color ℚ} (hamount : RgbAmount amount s)
      (hrgb : c.rgb = .ok t) (hsum : d.rgb = .ok (t.zipWith (· + ·) s)) : Added c .rgb amount d

/-! ## Opposite amounts -/

namespace Adjuster

/-- The names of the adjusters that add and subtract. -/
def addingNames : List String :=
  ["red", "green", "blue", "alpha", "hue", "saturation", "lightness", "whiteness", "blackness",
    "rgb"]

/-- The adjuster is about a channel or about rgb. -/
def adds : Adjuster → Bool
  | channel _ | rgb => true
  | _ => false

theorem exists_adds_of_mem {name : String} (h : name ∈ addingNames) :
    ∃ adjuster, ofName? name = some adjuster ∧ adjuster.adds := by
  have hfound : ∀ name ∈ addingNames, (ofName? name).any adds := by decide
  exact (Option.any_eq_true _ _).mp (hfound name h)

theorem color_not_mem_of_adds {adjuster : Adjuster} (h : adjuster.adds) :
    ∀ p ∈ adjuster.patterns, .color ∉ p := by
  cases adjuster with
  | rgb => decide
  | channel ch => cases ch <;> decide
  | _ => cases h

theorem changeChannel_eq {c d : Color ℚ} {channel : Channel} {op : Operator} {x v : ℚ}
    (hget : c.get channel = .ok x)
    (hset : c.set channel (stored channel (op.apply x v)) = .ok d) :
    changeChannel channel c [.operator op, .number v] = .ok (some d) := by
  rw [changeChannel, hget]
  change (c.set channel _ >>= fun d => pure (some d)) = _
  rw [hset]
  rfl

theorem changeRgb_of_amount {c : Color ℚ} {amount : List (Value ℚ)} {s t : Triple ℚ}
    (hamount : RgbAmount amount s) (ht : c.rgb = .ok t) (op : Operator) :
    changeRgb c (.operator op :: amount) = .ok (some (c.setRgb (t.zipWith op.apply s))) := by
  rw [changeRgb, ht]
  rcases hamount with rfl | ⟨other, rfl, hother⟩
  · rfl
  · change (other.rgb >>= _) = _
    rw [hother]
    rfl

theorem exists_rgbAmount_of_form {pattern : Pattern} (hpattern : pattern ∈ rgb.patterns)
    {amount : List (Value ℚ)} (h : pattern.Form (.operator .add :: amount)) :
    ∃ s, RgbAmount amount s := by
  simp only [patterns, List.mem_cons, List.not_mem_nil, or_false] at hpattern
  rcases hpattern with rfl | rfl | rfl | rfl
  · obtain _ | ⟨-, _ | ⟨⟨r, rfl⟩, _ | ⟨⟨g, rfl⟩, _ | ⟨⟨b, rfl⟩, ⟨⟩⟩⟩⟩⟩ := h
    exact ⟨⟨r, g, b⟩, .inl rfl⟩
  · obtain _ | ⟨-, _ | ⟨⟨r, rfl⟩, _ | ⟨⟨g, rfl⟩, _ | ⟨⟨b, rfl⟩, ⟨⟩⟩⟩⟩⟩ := h
    exact ⟨⟨r, g, b⟩, .inl rfl⟩
  · obtain _ | ⟨-, _ | ⟨⟨other, rfl⟩, ⟨⟩⟩⟩ := h
    obtain ⟨s, hs, -⟩ := other.exists_rgb
    exact ⟨s, .inr ⟨other, rfl, hs⟩⟩
  · obtain _ | ⟨htimes, -⟩ := h
    cases htimes

variable [LightCurve ℚ]

/-- The amount is added to the color, and to take it away brings the color back. -/
structure TakesBack (adjuster : Adjuster) (amount : List (Value ℚ)) (c between d : Color ℚ) :
    Prop where
  add : adjuster.change c (.operator .add :: amount) = .ok (some between)
  added : c.Added adjuster amount between
  subtract : adjuster.change between (.operator .subtract :: amount) = .ok (some d)
  rgb : d.rgb = c.rgb
  alpha : d.alpha = c.alpha

theorem exists_takesBack_rgb (c : Color ℚ) {amount : List (Value ℚ)} {s : Triple ℚ}
    (hamount : RgbAmount amount s) : ∃ between d, rgb.TakesBack amount c between d := by
  obtain ⟨t, ht, -⟩ := c.exists_rgb
  have hback : (t.zipWith (· + ·) s).zipWith (· - ·) s = t := by
    simp only [Triple.zipWith, add_sub_cancel_right]
  refine ⟨_, _, changeRgb_of_amount hamount ht .add, .rgb hamount ht rfl,
    changeRgb_of_amount hamount rfl .subtract, ?_, rfl⟩
  exact (congrArg Except.ok hback).trans ht.symm

variable {c : Color ℚ} (hc : c.Sound)

include hc

theorem exists_takesBack_channel (ch : Channel) (v : ℚ) :
    ∃ between d, (channel ch).TakesBack [.number v] c between d := by
  cases hhome : ch.home? with
  | none =>
    -- alpha is written without a change of space
    obtain rfl : ch = .alpha := by cases ch <;> first | rfl | cases hhome
    exact ⟨_, .ofChannels c.space c.channels (c.alpha + v - v) _, rfl, .channel rfl rfl, rfl,
      Color.rgb_ofChannels rfl _ _, add_sub_cancel_right c.alpha v⟩
  | some home =>
    obtain ⟨space, place⟩ := home
    obtain ⟨t, ht, hrgb⟩ := hc.exists_channelsIn space
    have hget := hc.get_of_channelsIn hhome ht
    have hset := Color.set_of_channelsIn hhome ht (stored ch (t.get place + v))
    have hget' := Color.get_ofChannels hhome (t.set (stored ch (t.get place + v)) place) c.alpha
      c.hue
    have hset' := Color.set_ofChannels hhome (t.set (stored ch (t.get place + v)) place) c.alpha
      c.hue (stored ch (stored ch (t.get place + v) - v))
    rw [Triple.get_set] at hget'
    rw [Triple.set_set] at hset'
    refine ⟨_, _, changeChannel_eq hget hset, .channel hget hget', changeChannel_eq hget' hset', ?_,
      rfl⟩
    -- the two conversions are undone, and a hue is back up to whole turns
    rw [stored_add_sub, Color.rgb_set_stored hhome, hrgb]

/-- Whatever amount an adjuster of a channel or of rgb reads after a plus is taken back. -/
theorem exists_takesBack {adjuster : Adjuster} (hadds : adjuster.adds) {pattern : Pattern}
    (hpattern : pattern ∈ adjuster.patterns) {amount : List (Value ℚ)}
    (h : pattern.Form (.operator .add :: amount)) :
    ∃ between d, adjuster.TakesBack amount c between d := by
  cases adjuster with
  | rgb =>
    obtain ⟨s, hamount⟩ := exists_rgbAmount_of_form hpattern h
    exact exists_takesBack_rgb c hamount
  | channel ch =>
    obtain ⟨op, v, hv⟩ | ⟨v, hv⟩ := isAmount_of_channel hpattern h
    · cases hv
      exact exists_takesBack_channel hc ch v
    · cases hv
  | _ => cases hadds

end Adjuster

/-- A color to which an amount is added and then subtracted again has its rgb channels and its alpha
back, for any adjuster of a channel or of rgb and any amount that it takes.  The sum in between is
not clamped. -/
theorem applyAdjusters_opposite [LightCurve ℚ] {space : ColorSpace} {channels : Triple ℚ}
    (hrgb : space = .rgb → channels.InUnit) (alpha kept : ℚ) {name : String}
    (hname : name ∈ Adjuster.addingNames)
    {plus minus : Node} {amount : List Node} (hplus : plus.Signed name .add amount)
    (hminus : minus.Signed name .subtract amount) {ctx : Context ℚ} (h : plus.isInstruction ctx) :
    let c := Color.ofChannels space channels alpha kept
    ∃ adjuster values between d t,
      plus.instruction? ctx = .ok (some (adjuster, .operator .add :: values)) ∧
      Returns (applyAdjusters c [plus] ctx) between [] ∧ c.Added adjuster values between ∧
      Returns (applyAdjusters c [plus, minus] ctx) d [] ∧
      c.rgb = .ok t ∧ d.rgb = .ok t ∧ d.alpha = alpha := by
  intro c
  have hc : c.Sound := Color.sound_ofChannels hrgb alpha kept
  obtain ⟨adjuster, hfound, hadds⟩ := Adjuster.exists_adds_of_mem hname
  have hcolor := Adjuster.color_not_mem_of_adds hadds
  obtain ⟨values, hadd, hsubtract⟩ := hplus.exists_opposite hminus hcolor hfound h
  obtain ⟨pattern, hpattern, hform⟩ :=
    Pattern.exists_form_of_firstOf (Node.firstOf_of_instruction? hadd)
  obtain ⟨between, d, hback⟩ := Adjuster.exists_takesBack hc hadds hpattern hform
  obtain ⟨t, ht, -⟩ := hc.exists_rgb
  have hfirst := returns_applyAdjuster_of_change hadd hback.add
  have hsecond := returns_applyAdjuster_of_change hsubtract hback.subtract
  have hone := returns_applyAdjusters_cons hfirst (returns_applyAdjusters_nil between ctx)
  have hboth := returns_applyAdjusters_cons hfirst
    (returns_applyAdjusters_cons hsecond (returns_applyAdjusters_nil d ctx))
  exact ⟨adjuster, values, between, d, t, hadd, hone, hback.added, hboth, ht, hback.rgb.trans ht,
    hback.alpha⟩

/-- Ten times full red is added to an overfull gray of hwb, and taken away again. -/
theorem applyAdjusters_opposite_redThousand :
    letI : LightCurve ℚ := ⟨id⟩
    let ctx : Context ℚ := { policy := .raise, format := .legacy, maxDepth := 64, cutoff := 75 }
    let gray : Color ℚ := .ofChannels .hwb ⟨30, 0.8, 0.9⟩ 0.25
    let plus := Node.function "Red" [.operator "+", .space, .number "1000" "%"]
    let minus := Node.function "red" [.operator "-", .number "1000" "%"]
    ∃ between d, Returns (applyAdjusters gray [plus] ctx) between [] ∧
      between.get .red = .ok (8 / 17 + 10) ∧
      Returns (applyAdjusters gray [plus, minus] ctx) d [] ∧
      d.rgb = .ok (.replicate (8 / 17)) ∧ d.alpha = 0.25 := by
  intro ctx gray plus minus
  let inst : LightCurve ℚ := ⟨id⟩
  have hplus : plus.Signed "red" .add [.number "1000" "%"] :=
    Node.signed_function "Red" .add [.space, .number "1000" "%"]
  have hminus : minus.Signed "red" .subtract [.number "1000" "%"] :=
    Node.signed_function "red" .subtract [.number "1000" "%"]
  have hfits : plus.isInstruction ctx := by decide +kernel
  obtain ⟨adjuster, values, between, d, t, -, hbetween, -, hd, ht, hrgb, halpha⟩ :=
    @applyAdjusters_opposite inst .hwb ⟨30, 0.8, 0.9⟩ nofun 0.25 0 "red" (by decide) plus minus _
      hplus hminus ctx hfits
  have hred : ((applyAdjusters gray [plus] ctx).outcome.toOption.bind fun e =>
      (e.get .red).toOption) = some (8 / 17 + 10) := by decide +kernel
  have hgray : gray.rgb = .ok (.replicate (8 / 17)) := by decide +kernel
  rw [hbetween.outcome_eq] at hred
  change (between.get .red).toOption = _ at hred
  have hsum : between.get .red = .ok (8 / 17 + 10) := by
    cases hget : between.get .red with
    | error fault => rw [hget] at hred; cases hred
    | ok x => rw [hget] at hred; exact congrArg Except.ok (Option.some.inj hred)
  exact ⟨between, d, hbetween, hsum, hd, hrgb.trans (ht.symm.trans hgray), halpha⟩

end ColorMod
