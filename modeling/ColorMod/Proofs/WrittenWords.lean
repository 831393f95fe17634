import ColorMod.Proofs.CanonicalText
import ColorMod.Proofs.Visits
import ColorMod.Stylesheet

/-!
# The words that a walk writes

In the place of a call a walk puts the text of a color.  The text is that of a color again, unless
it shows a hue that has grown past all doubles: such a hue is written as a word, and the color
function rejects it.

* `result_walk_cases`: what stands in the place of a call, wherever a walk ends.
* `readsAsColor_text`, `rejectsHue_text`: the two kinds of text.
* `transform_word_cases`: which of the two a word is, for a value with its variables replaced.
-/

namespace ColorMod

open Scalar Written

/-! ## What stands in the place of a call -/

/-- After a walk there stands in each place what the walk made of the thing there, or the thing
itself if there was a fault before. -/
theorem Walked.getElem?_each {α β : Type} {f : β → Walked α β} {bs : List β} {i : ℕ} {r : β}
    (h : (each f bs).result[i]? = some r) : ∃ b, bs[i]? = some b ∧ (r = (f b).result ∨ r = b) := by
  induction bs generalizing i with
  | nil => cases h
  | cons b bs ih =>
    rw [each] at h
    cases hrun : (f b).run.outcome with
    | ok u =>
      rw [cons_result_of_ok hrun] at h
      cases i with
      | zero =>
        cases h
        exact ⟨b, rfl, .inl rfl⟩
      | succ i => exact ih h
    | error e =>
      rw [cons_result_of_error hrun] at h
      cases i with
      | zero =>
        cases h
        exact ⟨b, rfl, .inl rfl⟩
      | succ i => exact ⟨r, h, .inr rfl⟩

section

variable {α : Type} [Scalar α] [LightCurve α]

/-- A call that is walked over stays or is replaced. -/
theorem walkCall_result_cases (call : Node) (ctx : Context α) :
    (walkCall call ctx).result = call ∨ ctx.Replaces call (walkCall call ctx).result := by
  cases h : (replaceCall call ctx).outcome with
  | error e =>
    rw [walkCall, h]
    exact .inl rfl
  | ok r =>
    rw [walkCall, h]
    exact .inr (replaces_of_replaceCall h)

/-- Wherever a walk ends, an outermost call stays or is replaced at the depth of its siblings. -/
theorem result_walk_cases (n : Node) : ∀ (ctx : Context α) (path : List ℕ) (call r : Node),
    n.at? path = some call → path ≠ [] → call.isCall → ¬n.InsideCall path →
    (walk n ctx).result.at? path = some r →
    r = call ∨ (ctx.atDepth (ctx.depth + (path.length - 1))).Replaces call r := by
  induction n using Node.induction_on_children with
  | step n ih =>
    intro ctx path call r hat hpath hcall hout hr
    by_cases hdeep : ctx.tooDeep
    · rw [walk_of_tooDeep ctx n hdeep] at hr
      exact .inl (Option.some.inj (hr.symm.trans hat))
    obtain ⟨i, path, rfl⟩ := List.exists_cons_of_ne_nil hpath
    obtain ⟨c, hc, hatc⟩ := Node.at?_cons.mp hat
    have houtc : ¬(c.isCall ∧ path ≠ [] ∨ c.InsideCall path) :=
      fun h => hout (Node.insideCall_cons.mpr ⟨c, hc, h⟩)
    cases n with
    | leaf h => simp [Node.children] at hc
    | branch h cs =>
      rw [walk_branch ctx h cs hdeep, walkAll_eq_each] at hr
      obtain ⟨r', hr', hatr⟩ := Node.at?_cons.mp hr
      obtain ⟨c', hc', hchild⟩ := Walked.getElem?_each hr'
      cases hc.symm.trans hc'
      rcases hchild with rfl | rfl
      · rw [walkChild] at hatr
        split at hatr
        · next hcallc =>
          obtain rfl : path = [] := Decidable.not_not.mp fun h => houtc (.inl ⟨hcallc, h⟩)
          cases hatc
          cases hatr
          exact walkCall_result_cases _ ctx
        · next hcallc =>
          split at hatr
          · exact .inl (Option.some.inj (hatr.symm.trans hatc))
          · have hpath : path ≠ [] := by
              rintro rfl
              cases hatc
              exact hcallc hcall
            have hlength : path.length ≠ 0 := fun h => hpath (List.length_eq_zero_iff.mp h)
            have hdepth : ctx.descend.depth + (path.length - 1) =
                ctx.depth + ((i :: path).length - 1) := by
              simp only [Context.descend, List.length_cons]
              omega
            have hbelow := ih c (List.mem_of_getElem? hc) ctx.descend path call r hatc hpath hcall
              (fun h => houtc (.inr h)) hatr
            rwa [hdepth] at hbelow
      · exact .inl (Option.some.inj (hatr.symm.trans hatc))

end

/-! ## Stray letters -/

/-- The letters of the words for numbers that are not finite, which neither the names of color
functions nor hex digits have. -/
def IsStray (c : Char) : Prop :=
  c = 'n' ∨ c = 'i'

/-- The stray letters of a text are from another one. -/
def StraysFrom (source s : String) : Prop :=
  ∀ c ∈ s.toList, IsStray c → c ∈ source.toList

section

variable {source s t : String}

theorem StraysFrom.append (hs : StraysFrom source s) (ht : StraysFrom source t) :
    StraysFrom source (s ++ t) := by
  intro c hc
  rw [String.toList_append, List.mem_append] at hc
  exact hc.elim (hs c) (ht c)

theorem StraysFrom.intercalate {ss : List String} (hs : StraysFrom source s)
    (hss : ∀ t ∈ ss, StraysFrom source t) : StraysFrom source (s.intercalate ss) := by
  induction ss with
  | nil => exact fun c hc => (by cases hc)
  | cons t ts ih =>
    obtain ⟨ht, hts⟩ := List.forall_mem_cons.mp hss
    cases ts with
    | nil => exact ht
    | cons u us =>
      rw [String.intercalate_cons_cons]
      exact (ht.append hs).append (ih hts)

theorem straysFrom_of_not (h : ∀ c ∈ s.toList, ¬IsStray c) : StraysFrom source s :=
  fun c hc hstray => absurd hstray (h c hc)

theorem not_isStray_of_isPlain {c : Char} (h : Numeral.IsPlain c) : ¬IsStray c := by
  rintro (rfl | rfl) <;> rcases h with h | h <;> exact absurd h (by decide)

variable {α : Type} [Scalar α]

theorem straysFrom_number {x : α} (h : Plain x) : StraysFrom source (number x) := by
  obtain ⟨q, hq, hq0⟩ := h
  obtain ⟨c, cs, htext, -, hplain⟩ :=
    Numeral.exists_unitsText_eq_cons (by decide : 0 < 10) (Decimal.scaled 10 q).natAbs
  refine straysFrom_of_not fun d hd => not_isStray_of_isPlain (hplain d ?_)
  rw [number, hq] at hd
  change d ∈ (Decimal.fixedText 10 q).toList at hd
  rwa [Numeral.toList_fixedText hq0, htext] at hd

theorem straysFrom_toString (n : ℕ) : StraysFrom source (toString n) := by
  refine straysFrom_of_not fun c hc => not_isStray_of_isPlain (.inl ?_)
  have hlist : (toString n).toList = Decimal.digits n := Nat.toList_repr
  rw [hlist] at hc
  exact Decimal.isDigit_of_mem_digits hc

theorem straysFrom_hexByte (x : α) : StraysFrom source (hexByte x) := by
  have hdigit : ∀ d < 16, Nat.digitChar d ≠ 'n' ∧ Nat.digitChar d ≠ 'i' := by decide
  refine straysFrom_of_not fun c hc => ?_
  rw [hexByte, String.toList_ofList, hexDigits_two] at hc
  have hlow : ∀ n : ℕ, ¬IsStray (Nat.digitChar (n % 16)) := fun n => by
    have h := hdigit _ (Nat.mod_lt n (by decide))
    rintro (h' | h')
    · exact h.1 h'
    · exact h.2 h'
  rcases List.mem_cons.mp hc with rfl | hc
  · exact hlow _
  · rw [List.mem_singleton.mp hc]
    exact hlow _

variable [ClampsPlain α]

theorem straysFrom_percentage (x : α) : StraysFrom source (percentage x) :=
  (straysFrom_number (ClampsPlain.percentage x)).append (straysFrom_of_not (by simp [IsStray]))

/-- A text has no stray letter but those of a hue that is shown. -/
theorem straysFrom_text {layout : Layout} {space : ColorSpace} {t : Triple α} {alpha : α}
    (hsource : space ≠ .rgb → source = hue t.first) :
    StraysFrom source (layout.text space t alpha) := by
  have hname : StraysFrom source space.name := by
    refine straysFrom_of_not ?_
    cases space <;> simp [ColorSpace.name, IsStray]
  have hchannels : ∀ {rgbText : α → String}, (∀ x, StraysFrom source (rgbText x)) →
      ∀ s ∈ (channels hue percentage rgbText space t).toList, StraysFrom source s := by
    intro rgbText hrgb s hs
    have hhue : space ≠ .rgb → StraysFrom source (hue t.first) := fun hspace => by
      rw [hsource hspace]
      exact fun c hc _ => hc
    cases space <;>
      simp only [channels, Triple.toList, Triple.map, List.mem_cons, List.not_mem_nil,
        or_false] at hs <;>
      rcases hs with rfl | rfl | rfl <;>
      first
      | with_reducible exact hrgb _
      | with_reducible exact straysFrom_percentage _
      | exact hhue (by decide)
  have hsign : ∀ {s : String}, (∀ c ∈ s.toList, ¬IsStray c) → StraysFrom source s :=
    straysFrom_of_not
  cases layout with
  | spaces =>
    rw [Layout.text, spaceForm]
    refine (((hname.append (hsign (by simp [IsStray]))).append
      ((hsign (by simp [IsStray])).intercalate (hchannels straysFrom_percentage))).append
      ?_).append (hsign (by simp [IsStray]))
    split
    · exact hsign (by simp)
    · exact (hsign (by simp [IsStray])).append (straysFrom_percentage _)
  | commas =>
    rw [Layout.text, commaForm]
    have hbytes := hchannels fun x => straysFrom_toString (byte x)
    split
    · exact ((hname.append (hsign (by simp [IsStray]))).append
        ((hsign (by simp [IsStray])).intercalate hbytes)).append (hsign (by simp [IsStray]))
    · refine ((hname.append (hsign (by simp [IsStray]))).append
        ((hsign (by simp [IsStray])).intercalate fun s hs => ?_)).append (hsign (by simp [IsStray]))
      rcases List.mem_append.mp hs with hs | hs
      · exact hbytes s hs
      · rw [List.mem_singleton.mp hs]
        exact straysFrom_number (ClampsPlain.clamp alpha)
  | hex =>
    change StraysFrom source (hexText t alpha)
    rw [hexText]
    refine ((hsign (by simp [IsStray])).append ((hsign (by simp)).intercalate fun s hs => ?_)).append
      ?_
    · obtain ⟨x, -, rfl⟩ := List.mem_map.mp hs
      exact straysFrom_hexByte x
    · split
      · exact hsign (by simp)
      · exact straysFrom_hexByte alpha

end

/-! ## A hue that is no number -/

/-- A hue that is not finite is written as one that is no number. -/
theorem hue_of_isNone {x : Float} (h : value? x = none) : hue x = "nan" := by
  have hrem : value? (floatRem x 360) = none := by
    rw [floatRem, show exactValue? x = none from h]
    decide +kernel
  change number (floatRem x 360) = "nan"
  rw [number, hrem]

section

variable {α : Type} [Scalar α]

/-- No form fits when the first argument does not. -/
theorem Pattern.firstOf_of_unfit {component : Component} {patterns : List Pattern}
    {arg : Argument α} {args : List (Argument α)} {ctx : Context α}
    (hunfit : component.read arg ctx.quiet = pure .unfit)
    (hfirst : ∀ p ∈ patterns, p.head? = some component) :
    firstOf patterns (arg :: args) ctx = pure none := by
  induction patterns with
  | nil => rfl
  | cons p ps ih =>
    obtain ⟨hp, hps⟩ := List.forall_mem_cons.mp hfirst
    cases p with
    | nil => cases hp
    | cons c p =>
      cases hp
      rw [firstOf_of_none (readAll_of_unfit hunfit), ih hps]

variable [LightCurve α]

/-- A color function with a word in the place of the hue resolves to nothing. -/
theorem resolveColor_of_word_hue {space : ColorSpace} (hspace : space ≠ .rgb) {name : String}
    (hname : space.Names name) (word : String) {args : List Node}
    (hargs : ∀ a ∈ args, a.kind ≠ .space) {ctx : Context α} (hdeep : ctx.tooDeep = false) :
    let node := Node.function name (.word word :: args)
    resolveColor node ctx = ctx.reject node node.render (.colorFunction space) := by
  intro node
  have hunfit : Component.hue.read (meaning (.word word)) ctx.quiet =
      (pure .unfit : Run α (Reading α)) := by
    rw [Component.read, meaning_node]
    rfl
  have hword : (Node.word word).kind ≠ .space := fun h => Node.Kind.noConfusion h
  have hfirst : ∀ p ∈ space.patterns, p.head? = some .hue := by
    cases space with
    | rgb => exact absurd rfl hspace
    | hsl => decide
    | hwb => decide
  rw [resolveColor_function hname (List.forall_mem_cons.mpr ⟨hword, hargs⟩) hdeep, resolveFunction,
    List.map_cons, Pattern.firstOf_of_unfit hunfit hfirst, pure_bind]
  rfl

end

section

variable {α : Type} [Scalar α] {layout : Layout} {space : ColorSpace} {t : Triple α}

theorem toList_channels_of_ne_rgb (hspace : space ≠ .rgb) (rgbText : α → String) :
    (channels hue percentage rgbText space t).toList =
      [hue t.first, percentage t.second, percentage t.third] := by
  cases space with
  | rgb => exact absurd rfl hspace
  | hsl => rfl
  | hwb => rfl

/-- The text of a space with a hue is that of a call with the hue as its first argument. -/
theorem exists_ofText_text (hfits : layout.Fits space) (hspace : space ≠ .rgb) (alpha : α) :
    ∃ name args, space.Names name ∧
      Node.ofText (layout.text space t alpha) =
        .function name (Node.ofRun (hue t.first) :: args) := by
  have hname : ∀ c ∈ space.name.toList, c ≠ '(' := fun c => not_paren_of_mem_name
  have hruns : ∀ s ∈ [hue t.first, percentage t.second, percentage t.third], Node.IsRun s := by
    simp only [List.forall_mem_cons]
    exact ⟨Node.isRun_hue _, Node.isRun_percentage _, Node.isRun_percentage _, by simp⟩
  cases layout with
  | spaces =>
    rw [Layout.text, toList_channels_of_ne_rgb hspace, Node.ofText_spaceForm hname hruns]
    exact ⟨_, _, .inl rfl, rfl⟩
  | commas =>
    rw [Layout.text, toList_channels_of_ne_rgb hspace, Node.ofText_commaForm hname hruns]
    split
    · exact ⟨_, _, .inl rfl, rfl⟩
    · exact ⟨_, _, .inr ⟨hfits, rfl⟩, rfl⟩
  | hex => exact absurd hfits hspace

/-- The text of a space with a hue shows the hue. -/
theorem hue_infix_text (hfits : layout.Fits space) (hspace : space ≠ .rgb) (alpha : α) :
    (hue t.first).toList <:+: (layout.text space t alpha).toList := by
  have hinfix : ∀ before after : String,
      (hue t.first).toList <:+: (before ++ (hue t.first ++ after)).toList := by
    intro before after
    rw [String.toList_append, String.toList_append, ← List.append_assoc]
    exact List.infix_append _ _ _
  cases layout with
  | spaces =>
    rw [Layout.text, toList_channels_of_ne_rgb hspace, spaceForm, String.intercalate_cons_cons]
    simpa only [String.append_assoc] using hinfix (space.name ++ "(") _
  | commas =>
    rw [Layout.text, toList_channels_of_ne_rgb hspace, commaForm]
    split
    · rw [String.intercalate_cons_cons]
      simpa only [String.append_assoc] using hinfix (space.name ++ "(") _
    · rw [List.cons_append, List.cons_append, String.intercalate_cons_cons]
      simpa only [String.append_assoc] using hinfix (space.name ++ "a(") _
  | hex => exact absurd hfits hspace

end

/-! ## What a walk writes -/

/-- A text that is read as a color, and has no word for a number that is not finite. -/
structure ReadsAsColor (text : String) : Prop where
  reads : ∃ d, ∀ ctx : Context Float, ctx.tooDeep = false →
    resolveColor (Node.ofText text) ctx = pure (.ok d)
  nan : ¬"nan".toList <:+: text.toList
  inf : ¬"inf".toList <:+: text.toList

/-- A text that the color function of a space does not take, since its hue is no number. -/
structure RejectsHue (space : ColorSpace) (text : String) : Prop where
  rejects : ∀ ctx : Context Float, ctx.tooDeep = false →
    resolveColor (Node.ofText text) ctx =
      ctx.reject (Node.ofText text) (Node.ofText text).render (.colorFunction space)
  nan : "nan".toList <:+: text.toList
  inf : ¬"inf".toList <:+: text.toList

section

variable {layout : Layout} {space : ColorSpace} {t : Triple Float} {alpha : Float}

theorem not_infix_inf {source text : String} (h : StraysFrom source text)
    (hsource : 'i' ∉ source.toList) : ¬"inf".toList <:+: text.toList := by
  intro hinfix
  have hmem : 'i' ∈ text.toList := hinfix.subset (by simp)
  exact hsource (h _ hmem (.inr rfl))

theorem not_infix_nan {source text : String} (h : StraysFrom source text)
    (hsource : 'n' ∉ source.toList) : ¬"nan".toList <:+: text.toList := by
  intro hinfix
  have hmem : 'n' ∈ text.toList := hinfix.subset (by simp)
  exact hsource (h _ hmem (.inl rfl))

/-- A text that shows no hue, or a finite one, is read as a color. -/
theorem readsAsColor_text (hfits : layout.Fits space)
    (hhue : space ≠ .rgb → (value? t.first).isSome) :
    ReadsAsColor (layout.text space t alpha) := by
  have hclean : StraysFrom "" (layout.text space t alpha) := by
    by_cases hspace : space = .rgb
    · exact straysFrom_text fun h => absurd hspace h
    · intro c hc hstray
      have hmem : c ∈ (hue t.first).toList := straysFrom_text (fun _ => rfl) c hc hstray
      exact straysFrom_number (plain_rem_wheel hhue hspace) c hmem hstray
  obtain ⟨u, a, hreads, -⟩ := layout.exists_reread hfits hhue alpha
  exact ⟨⟨_, fun ctx hdeep =>
    Layout.resolveColor_ofText_text hfits (plain_rem_wheel hhue) hreads hdeep⟩,
    not_infix_nan hclean (by simp), not_infix_inf hclean (by simp)⟩

/-- A text that shows a hue that is not finite is no color. -/
theorem rejectsHue_text (hfits : layout.Fits space) (hspace : space ≠ .rgb)
    (hhue : value? t.first = none) : RejectsHue space (layout.text space t alpha) := by
  have hnan := hue_of_isNone hhue
  obtain ⟨name, args, hname, hnode⟩ := exists_ofText_text (t := t) hfits hspace alpha
  have hinfix := hue_infix_text (t := t) hfits hspace alpha
  have hkinds := Node.kind_ne_space_of_ofText hnode
  rw [hnan] at hnode hinfix
  refine ⟨fun ctx hdeep => ?_, hinfix, ?_⟩
  · rw [hnode]
    exact resolveColor_of_word_hue hspace hname "nan"
      (fun a ha => hkinds a (List.mem_cons_of_mem _ ha)) hdeep
  · have hstrays : StraysFrom "nan" (layout.text space t alpha) :=
      straysFrom_text fun _ => hnan.symm
    exact not_infix_inf hstrays (by simp)

end

/-- The text of a color is read as a color just when the hue that it shows, if it shows one, is
finite. -/
theorem Color.toCss_cases {c : Color Float} {format : ColorFormat} {text : String}
    (h : c.toCss format = .ok text) : ∃ t, c.channelsIn (format.spaceOf c) = .ok t ∧
      ((format.spaceOf c = .rgb ∨ (value? t.first).isSome) ∧ ReadsAsColor text ∨
        (format.spaceOf c ≠ .rgb ∧ value? t.first = none) ∧
          RejectsHue (format.spaceOf c) text) := by
  have hfits := format.fits_spaceOf c
  rw [c.toCss_eq] at h
  cases ht : c.channelsIn (format.spaceOf c) with
  | error e =>
    rw [ht] at h
    cases h
  | ok t =>
    rw [ht] at h
    cases h
    refine ⟨t, rfl, ?_⟩
    by_cases hspace : format.spaceOf c = .rgb
    · exact .inl ⟨.inl hspace, readsAsColor_text hfits fun hne => absurd hspace hne⟩
    · cases hhue : value? t.first with
      | none => exact .inr ⟨⟨hspace, rfl⟩, rejectsHue_text hfits hspace hhue⟩
      | some q =>
        have hfinite : (value? t.first).isSome := Option.isSome_of_eq_some hhue
        exact .inl ⟨.inr rfl, readsAsColor_text hfits fun _ => hfinite⟩

/-- Wherever a transformation ends and whatever the policy, a word that stands in the place of an
outermost call is the text of the color that the call resolves to.  It is read as a color just when
the hue that it shows, if it shows one, is finite. -/
theorem transform_word_cases (tree : Node) (ctx : Context Float) (props : Properties)
    {path : List ℕ} {call : Node} {text : String}
    (hat : (if props.isEmpty then tree else tree.mapCalls (substitute props)).at? path = some call)
    (hpath : path ≠ []) (hcall : call.isCall)
    (hout : ¬(if props.isEmpty then tree else tree.mapCalls (substitute props)).InsideCall path)
    (hword : (transform tree ctx props).result.at? path = some (.word text)) :
    ∃ c t, (resolveColorMod call (ctx.atDepth (ctx.depth + (path.length - 1)))).outcome =
        .ok (.ok c) ∧
      c.toCss ctx.format = .ok text ∧ c.channelsIn (ctx.format.spaceOf c) = .ok t ∧
      ((ctx.format.spaceOf c = .rgb ∨ (value? t.first).isSome) ∧ ReadsAsColor text ∨
        (ctx.format.spaceOf c ≠ .rgb ∧ value? t.first = none) ∧
          RejectsHue (ctx.format.spaceOf c) text) := by
  rcases result_walk_cases _ ctx path call _ hat hpath hcall hout hword with rfl | hreplaces
  · cases hcall
  · generalize hw : Node.word text = w at hreplaces
    cases hreplaces with
    | noColor =>
      subst hw
      cases hcall
    | @color c text' hcolor htext =>
      obtain rfl : text = text' := by injection hw with h; injection h
      have htext' : c.toCss ctx.format = .ok text := htext
      obtain ⟨t, ht, hcases⟩ := Color.toCss_cases htext'
      exact ⟨c, t, hcolor, htext', ht, hcases⟩

/-- `color-mod(120 hue(* 1e308))` -/
def Node.hugeHue : Node :=
  .root [.function colorModName [.number "120",
    .function "hue" [.operator "*", .number "1e308"]]]

theorem Node.eq_of_head_isBranch {n : Node} {h : Head} (hn : (n.head, n.isBranch) = (h, false)) :
    n = .leaf h := by
  cases n with
  | leaf h' =>
    cases hn
    rfl
  | branch h' cs => cases hn

/-- A hue that grows past all doubles is written as no number, and the text is no color. -/
theorem transform_word_cases_hugeHue :
    let ctx : Context Float := { policy := .raise, format := .legacy, maxDepth := 64, cutoff := 75 }
    (transform Node.hugeHue ctx []).result.at? [0] = some (.word "hsl(nan, 100%, 50%)") ∧
      RejectsHue .hsl "hsl(nan, 100%, 50%)" := by
  intro ctx
  have hword : (transform Node.hugeHue ctx []).result.at? [0] =
      some (.word "hsl(nan, 100%, 50%)") := by
    have hhead : ((transform Node.hugeHue ctx []).result.at? [0]).map
        (fun n => (n.head, n.isBranch)) =
          some ({ kind := .word, value := "hsl(nan, 100%, 50%)" }, false) := by
      decide +kernel
    obtain ⟨n, hn, hparts⟩ := Option.map_eq_some_iff.mp hhead
    rw [hn, Node.eq_of_head_isBranch hparts]
    rfl
  have houtermost : ¬Node.hugeHue.InsideCall [0] := by
    rw [Node.insideCall_cons]
    rintro ⟨c, -, ⟨-, hne⟩ | hinside⟩
    · exact hne rfl
    · exact c.not_insideCall_nil hinside
  obtain ⟨c, t, -, -, -, ⟨-, hreads⟩ | ⟨⟨hspace, -⟩, hrejects⟩⟩ :=
    transform_word_cases Node.hugeHue ctx [] rfl (by decide) (by decide) houtermost hword
  · have hnan : "nan".toList <:+: "hsl(nan, 100%, 50%)".toList := ⟨"hsl(".toList, _, rfl⟩
    exact absurd hnan hreads.nan
  · have hhsl : ctx.format.spaceOf c = .hsl := by
      by_contra hne
      exact hspace (if_neg fun h => hne (if_pos h))
    exact ⟨hword, hhsl ▸ hrejects⟩

end ColorMod
