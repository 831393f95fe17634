import ColorMod.Proofs.Meanings
import ColorMod.Proofs.Runs

/-!
# Color functions that resolve

The arguments of a color function are read one by one, so a function resolves when each of its
arguments holds a number in the place where the form wants one (`Component.Finds`).

* `resolveColor_spaced`, `resolveColor_commas`: the functions of the two syntaxes, with and without
  alpha.
* `finds_hue`, `finds_percentage`, …: the numbers in nodes whose amounts are numerals.
-/

namespace ColorMod

variable {α : Type} [Scalar α]

/-! ## Patterns -/

/-- The component finds a number in the argument, in any context. -/
def Component.Finds (component : Component) (arg : Argument α) (x : α) : Prop :=
  ∀ ctx, component.read arg ctx = pure (.found (.number x))

namespace Pattern

variable {component : Component} {pattern : Pattern} {patterns : List Pattern} {arg : Argument α}
  {args : List (Argument α)} {values : List (Value α)} {ctx : Context α}

theorem readAll_of_finds {x : α} (h : component.Finds arg x)
    (hrest : readAll ctx pattern args = pure (some values)) :
    readAll ctx (component :: pattern) (arg :: args) = pure (some (.number x :: values)) := by
  rw [readAll, h ctx, pure_bind]
  dsimp only
  rw [hrest, pure_bind]
  rfl

theorem readAll_of_separator (h : component.read arg ctx = pure .separator) :
    readAll ctx (component :: pattern) (arg :: args) = readAll ctx pattern args := by
  rw [readAll, h, pure_bind]

theorem readAll_of_unfit (h : component.read arg ctx = pure .unfit) :
    readAll ctx (component :: pattern) (arg :: args) = pure none := by
  rw [readAll, h, pure_bind]

theorem readAll_none_of_finds {x : α} (h : component.Finds arg x)
    (hrest : readAll ctx pattern args = pure none) :
    readAll ctx (component :: pattern) (arg :: args) = pure none := by
  rw [readAll, h ctx, pure_bind]
  dsimp only
  rw [hrest, pure_bind]
  rfl

theorem firstOf_of_length_ne (h : args.length ≠ pattern.length) :
    firstOf (pattern :: patterns) args ctx = firstOf patterns args ctx := by
  rw [firstOf, matches?, if_neg h, pure_bind]

theorem firstOf_of_none (h : readAll ctx.quiet pattern args = pure none) :
    firstOf (pattern :: patterns) args ctx = firstOf patterns args ctx := by
  rw [firstOf, matches?]
  split
  · rw [h, pure_bind]
  · rw [pure_bind]

theorem firstOf_of_some (hlength : args.length = pattern.length)
    (h : readAll ctx.quiet pattern args = pure (some values)) :
    firstOf (pattern :: patterns) args ctx = pure (some values) := by
  rw [firstOf, matches?, if_pos hlength, h, pure_bind]

end Pattern

/-! ## Color functions -/

section

variable [LightCurve α]

@[simp] theorem read_slash (ctx : Context α) :
    Component.slash.read (meaning (.operator "/")) ctx = pure .separator := by
  rw [Component.read, meaning_node]
  rfl

@[simp] theorem read_comma (ctx : Context α) :
    Component.comma.read (meaning .comma) ctx = pure .separator := by
  rw [Component.read, meaning_node]
  rfl

end

namespace ColorSpace

/-- The components of the channels in the forms of the color function. -/
def components : ColorSpace → Triple Component
  | .rgb => ⟨.rgbValue, .rgbValue, .rgbValue⟩
  | .hsl | .hwb => ⟨.hue, .percentage, .percentage⟩

/-- The arguments hold the channels of a color of the space. -/
structure Finds (space : ColorSpace) (args : Triple (Argument α)) (t : Triple α) : Prop where
  first : space.components.first.Finds args.first t.first
  second : space.components.second.Finds args.second t.second
  third : space.components.third.Finds args.third t.third

/-- The forms with spaces come first. -/
theorem exists_patterns_eq (space : ColorSpace) : ∃ commaPatterns, space.patterns =
    [space.components.first, space.components.second, space.components.third, .slash, .alpha] ::
    [space.components.first, space.components.second, space.components.third] ::
    commaPatterns := by
  cases space <;> exact ⟨_, rfl⟩

/-- All forms of a space that allows commas. -/
theorem patterns_eq_of_ne {space : ColorSpace} (h : space ≠ .hwb) : space.patterns =
    [[space.components.first, space.components.second, space.components.third, .slash, .alpha],
     [space.components.first, space.components.second, space.components.third],
     [space.components.first, .comma, space.components.second, .comma, space.components.third,
      .comma, .alpha],
     [space.components.first, .comma, space.components.second, .comma, space.components.third]] := by
  cases space with
  | rgb => rfl
  | hsl => rfl
  | hwb => exact absurd rfl h

/-- The names that a function of the space goes by. -/
def Names (space : ColorSpace) (name : String) : Prop :=
  name = space.name ∨ space ≠ .hwb ∧ name = space.name ++ "a"

end ColorSpace

section

variable {space : ColorSpace} {args : Triple (Argument α)} {t : Triple α} {alpha : α}
  {alphaArg : Argument α} (node : Node) (ctx : Context α)

theorem resolveFunction_of_firstOf (values : List (Value α)) {args : List (Argument α)}
    {c : Color α} (h : Pattern.firstOf space.patterns args ctx = pure (some values))
    (hc : Color.ofValues? space values = some c) :
    resolveFunction space node args ctx = pure (.ok c) := by
  rw [resolveFunction, h, pure_bind, Option.bind_some, hc]

theorem resolveFunction_spaced (h : space.Finds args t) :
    resolveFunction space node args.toList ctx = pure (.ok (.ofChannels space t 1)) := by
  refine resolveFunction_of_firstOf node ctx [.number t.first, .number t.second,
    .number t.third] ?_ rfl
  obtain ⟨commaPatterns, hpatterns⟩ := space.exists_patterns_eq
  rw [hpatterns, Pattern.firstOf_of_length_ne (by simp [Triple.toList])]
  exact Pattern.firstOf_of_some rfl <| Pattern.readAll_of_finds h.first <|
    Pattern.readAll_of_finds h.second <| Pattern.readAll_of_finds h.third rfl

variable [LightCurve α]

theorem resolveFunction_spaced_alpha (h : space.Finds args t)
    (halpha : Component.alpha.Finds alphaArg alpha) :
    resolveFunction space node (args.toList ++ [meaning (.operator "/"), alphaArg]) ctx =
      pure (.ok (.ofChannels space t alpha)) := by
  refine resolveFunction_of_firstOf node ctx [.number t.first, .number t.second,
    .number t.third, .number alpha] ?_ rfl
  obtain ⟨commaPatterns, hpatterns⟩ := space.exists_patterns_eq
  rw [hpatterns]
  refine Pattern.firstOf_of_some rfl <| Pattern.readAll_of_finds h.first <|
    Pattern.readAll_of_finds h.second <| Pattern.readAll_of_finds h.third ?_
  exact (Pattern.readAll_of_separator (read_slash _)).trans (Pattern.readAll_of_finds halpha rfl)

theorem resolveFunction_commas (hspace : space ≠ .hwb) (h : space.Finds args t) :
    resolveFunction space node
      [args.first, meaning .comma, args.second, meaning .comma, args.third] ctx =
      pure (.ok (.ofChannels space t 1)) := by
  have hunfit : space.components.second.read (meaning .comma) ctx.quiet =
      (pure .unfit : Run α _) := by
    cases space with
    | rgb =>
      change Component.rgbValue.read _ _ = _
      rw [Component.read, meaning_node]
      rfl
    | hsl =>
      change Component.percentage.read _ _ = _
      rw [Component.read, meaning_node]
      rfl
    | hwb => exact absurd rfl hspace
  refine resolveFunction_of_firstOf node ctx [.number t.first, .number t.second,
    .number t.third] ?_ rfl
  rw [ColorSpace.patterns_eq_of_ne hspace,
    Pattern.firstOf_of_none <| Pattern.readAll_none_of_finds h.first <|
      Pattern.readAll_of_unfit hunfit,
    Pattern.firstOf_of_length_ne (by simp), Pattern.firstOf_of_length_ne (by simp)]
  refine Pattern.firstOf_of_some rfl <| Pattern.readAll_of_finds h.first ?_
  rw [Pattern.readAll_of_separator (read_comma _)]
  refine Pattern.readAll_of_finds h.second ?_
  rw [Pattern.readAll_of_separator (read_comma _)]
  exact Pattern.readAll_of_finds h.third rfl

theorem resolveFunction_commas_alpha (hspace : space ≠ .hwb) (h : space.Finds args t)
    (halpha : Component.alpha.Finds alphaArg alpha) :
    resolveFunction space node
      [args.first, meaning .comma, args.second, meaning .comma, args.third, meaning .comma,
        alphaArg] ctx =
      pure (.ok (.ofChannels space t alpha)) := by
  refine resolveFunction_of_firstOf node ctx [.number t.first, .number t.second,
    .number t.third, .number alpha] ?_ rfl
  rw [ColorSpace.patterns_eq_of_ne hspace,
    Pattern.firstOf_of_length_ne (by simp), Pattern.firstOf_of_length_ne (by simp)]
  refine Pattern.firstOf_of_some rfl <| Pattern.readAll_of_finds h.first ?_
  rw [Pattern.readAll_of_separator (read_comma _)]
  refine Pattern.readAll_of_finds h.second ?_
  rw [Pattern.readAll_of_separator (read_comma _)]
  refine Pattern.readAll_of_finds h.third ?_
  rw [Pattern.readAll_of_separator (read_comma _)]
  exact Pattern.readAll_of_finds halpha rfl

end

/-! ## Nodes -/

theorem arguments_function {name : String} {args : List Node} (h : ∀ a ∈ args, a.kind ≠ .space) :
    (Node.function name args).arguments = args := by
  rw [Node.arguments, Node.function, Node.children, Node.inner, List.cons_append, List.tail_cons,
    List.dropLast_concat, List.filter_eq_self]
  intro a ha
  simpa using h a ha

theorem ColorSpace.names_lower {space : ColorSpace} {name : String} (h : space.Names name) :
    space.Names (Text.lower name) := by
  have hlower : Text.lower name = name := by
    rcases h with rfl | ⟨hspace, rfl⟩
    · cases space <;> rfl
    · cases space with
      | rgb => rfl
      | hsl => rfl
      | hwb => exact absurd rfl hspace
  rwa [hlower]

theorem resolveNamedFunction_of_names {space : ColorSpace} {node : Node}
    (hname : space.Names node.name) (args : List (Argument α)) (ctx : Context α) :
    resolveNamedFunction node args ctx = resolveFunction space node args ctx := by
  rw [resolveNamedFunction]
  rcases hname with hname | ⟨hspace, hname⟩
  · rw [hname]
    cases space <;> rfl
  · rw [hname]
    cases space with
    | rgb => rfl
    | hsl => rfl
    | hwb => exact absurd rfl hspace

section

variable [LightCurve α] {space : ColorSpace} {name : String} {nodes : Triple Node} {t : Triple α}
  {alpha : α} {alphaNode : Node} {ctx : Context α}

/-- The nodes hold the channels of a color of the space, and none of them is a blank. -/
structure ColorSpace.Reads (space : ColorSpace) (nodes : Triple Node) (t : Triple α) : Prop where
  finds : space.Finds (nodes.map meaning) t
  kind : ∀ n ∈ nodes.toList, n.kind ≠ .space

/-- A color function is resolved by the forms of its space. -/
theorem resolveColor_of_names {n : Node} (hkind : n.kind = .function) (hname : space.Names n.name)
    (hdeep : ctx.tooDeep = false) :
    resolveColor n ctx = resolveFunction space n (n.arguments.map meaning) ctx := by
  rw [resolveColor_eq, resolveNode, if_neg (by simp [hdeep]), hkind]
  exact resolveNamedFunction_of_names hname _ ctx

theorem resolveColor_function (hname : space.Names name) {args : List Node}
    (hargs : ∀ a ∈ args, a.kind ≠ .space) (hdeep : ctx.tooDeep = false) :
    resolveColor (.function name args) ctx =
      resolveFunction space (.function name args) (args.map meaning) ctx := by
  rw [resolveColor_of_names rfl (ColorSpace.names_lower hname) hdeep, arguments_function hargs]

theorem resolveColor_spaced (h : space.Reads nodes t) (hdeep : ctx.tooDeep = false) :
    resolveColor (.function space.name nodes.toList) ctx =
      pure (.ok (.ofChannels space t 1)) := by
  rw [resolveColor_function (.inl rfl) h.kind hdeep]
  exact resolveFunction_spaced _ ctx h.finds

theorem resolveColor_spaced_alpha (h : space.Reads nodes t)
    (halpha : Component.alpha.Finds (meaning alphaNode) alpha) (hkind : alphaNode.kind ≠ .space)
    (hdeep : ctx.tooDeep = false) :
    resolveColor (.function space.name (nodes.toList ++ [.operator "/", alphaNode])) ctx =
      pure (.ok (.ofChannels space t alpha)) := by
  have hargs : ∀ a ∈ nodes.toList ++ [.operator "/", alphaNode], a.kind ≠ .space := by
    intro a ha
    rcases List.mem_append.mp ha with ha | ha
    · exact h.kind a ha
    · rcases List.mem_cons.mp ha with rfl | ha
      · decide
      · rwa [List.mem_singleton.mp ha]
  rw [resolveColor_function (.inl rfl) hargs hdeep, List.map_append]
  exact resolveFunction_spaced_alpha _ ctx h.finds halpha

theorem resolveColor_commas (hspace : space ≠ .hwb) (h : space.Reads nodes t)
    (hdeep : ctx.tooDeep = false) :
    resolveColor (.function space.name (nodes.toList.intersperse .comma)) ctx =
      pure (.ok (.ofChannels space t 1)) := by
  have hargs : ∀ a ∈ nodes.toList.intersperse .comma, a.kind ≠ .space := by
    intro a ha
    simp only [Triple.toList, List.intersperse, List.mem_cons, List.not_mem_nil, or_false] at ha
    rcases ha with rfl | rfl | rfl | rfl | rfl
    · exact h.kind _ (by simp [Triple.toList])
    · decide
    · exact h.kind _ (by simp [Triple.toList])
    · decide
    · exact h.kind _ (by simp [Triple.toList])
  rw [resolveColor_function (.inl rfl) hargs hdeep]
  exact resolveFunction_commas _ ctx hspace h.finds

theorem resolveColor_commas_alpha (hspace : space ≠ .hwb) (h : space.Reads nodes t)
    (halpha : Component.alpha.Finds (meaning alphaNode) alpha) (hkind : alphaNode.kind ≠ .space)
    (hdeep : ctx.tooDeep = false) :
    resolveColor (.function (space.name ++ "a") ((nodes.toList ++ [alphaNode]).intersperse .comma))
      ctx = pure (.ok (.ofChannels space t alpha)) := by
  have hargs : ∀ a ∈ (nodes.toList ++ [alphaNode]).intersperse .comma, a.kind ≠ .space := by
    intro a ha
    simp only [Triple.toList, List.cons_append, List.nil_append, List.intersperse, List.mem_cons,
      List.not_mem_nil, or_false] at ha
    rcases ha with rfl | rfl | rfl | rfl | rfl | rfl | rfl
    · exact h.kind _ (by simp [Triple.toList])
    · decide
    · exact h.kind _ (by simp [Triple.toList])
    · decide
    · exact h.kind _ (by simp [Triple.toList])
    · decide
    · exact hkind
  rw [resolveColor_function (.inr ⟨hspace, rfl⟩) hargs hdeep]
  exact resolveFunction_commas_alpha _ ctx hspace h.finds halpha

end

/-! ## Numbers in nodes -/

section

variable [LightCurve α] {amount : String} {x : α} (h : Scalar.ofText? amount = some x)

include h

theorem finds_hue : Component.hue.Finds (meaning (.number amount)) x := fun ctx => by
  rw [Component.read, meaning_node]
  change pure (Reading.ofOption Value.number (Scalar.ofText? amount)) = _
  rw [h]
  rfl

theorem finds_percentage :
    Component.percentage.Finds (meaning (.number amount "%")) (x / 100) := fun ctx => by
  rw [Component.read, meaning_node]
  change pure (Reading.ofOption Value.number ((Scalar.ofText? amount).map (· / 100))) = _
  rw [h]
  rfl

theorem finds_rgbValue_percentage :
    Component.rgbValue.Finds (meaning (.number amount "%")) (x / 100) := fun ctx => by
  rw [Component.read, meaning_node]
  change pure (Reading.ofOption Value.number ((Scalar.ofText? amount).map (· / 100))) = _
  rw [h]
  rfl

theorem finds_rgbValue_number :
    Component.rgbValue.Finds (meaning (.number amount)) (x / 255) := fun ctx => by
  rw [Component.read, meaning_node]
  change pure (Reading.ofOption Value.number ((Scalar.ofText? amount).map (· / 255))) = _
  rw [h]
  rfl

theorem finds_alpha_percentage :
    Component.alpha.Finds (meaning (.number amount "%")) (x / 100) := fun ctx => by
  rw [Component.read, meaning_node]
  change pure (Reading.ofOption Value.number ((Scalar.ofText? amount).map (· / 100))) = _
  rw [h]
  rfl

theorem finds_alpha_number : Component.alpha.Finds (meaning (.number amount)) x := fun ctx => by
  rw [Component.read, meaning_node]
  change pure (Reading.ofOption Value.number (Scalar.ofText? amount)) = _
  rw [h]
  rfl

end

end ColorMod
