import ColorMod.Proofs.WrittenNodes

/-!
# What a text shows

A text shows its channels, and alpha unless the color covers fully.  Colors of one space that are
laid out in the same way have the same text just when their texts show the same.

* `Layout.channelTexts`, `Layout.alphaText`: the parts of a text.
* `Layout.text_eq_iff`: texts are taken apart into nodes, and so their parts can be told.
* `Layout.resolveColor_ofText_text`: the color that a text resolves to, for every layout.
-/

namespace ColorMod

open Scalar Written

variable {α : Type} [Scalar α]

namespace Layout

/-- Colors of the space can be laid out so: no layout with commas has a form for hwb, and hex is for
rgb. -/
def Fits (space : ColorSpace) : Layout → Prop
  | spaces => True
  | commas => space ≠ .hwb
  | hex => space = .rgb

/-- The text of each channel. -/
def channelTexts (space : ColorSpace) (t : Triple α) : Layout → Triple String
  | spaces => channels hue percentage percentage space t
  | commas => channels hue percentage (fun x => toString (byte x)) space t
  | hex => t.map hexByte

/-- The text of an alpha that is shown. -/
def alphaText (alpha : α) : Layout → String
  | spaces => percentage (clamp alpha)
  | commas => number (clamp alpha)
  | hex => hexByte alpha

/-- The texts of two colors of a space show the same. -/
structure ShowsAlike (layout : Layout) (space : ColorSpace) (u : Triple α) (a : α) (t : Triple α)
    (alpha : α) : Prop where
  channels : layout.channelTexts space u = layout.channelTexts space t
  covers : 1 ≤ clamp a ↔ 1 ≤ clamp alpha
  alpha : ¬1 ≤ clamp alpha → layout.alphaText a = layout.alphaText alpha

end Layout

/-! ## Texts and their parts -/

theorem Node.eq_of_function_eq {name name' : String} {args args' : List Node}
    (h : function name args = function name' args') : name = name' ∧ args = args' := by
  simpa [function] using h

attribute [ext] Triple

section

variable {space : ColorSpace} {t u : Triple α} {alpha a : α}

/-- Nodes of channels have the same text when they are the same. -/
theorem channels_eq_of_nodes_eq {rgbNode : α → Node} {rgbText : α → String}
    (hrgb : ∀ x, (rgbNode x).render = rgbText x)
    (h : channels hueNode percentageNode rgbNode space u =
      channels hueNode percentageNode rgbNode space t) :
    channels hue percentage rgbText space u = channels hue percentage rgbText space t := by
  rw [← map_render_channels hrgb, ← map_render_channels hrgb, h]

section

variable [ClampsPlain α] (ht : space ≠ .rgb → Plain (rem t.first 360))
  (hu : space ≠ .rgb → Plain (rem u.first 360))

include ht hu

theorem showsAlike_of_text_spaces_eq
    (h : Layout.text space u a .spaces = Layout.text space t alpha .spaces) :
    Layout.spaces.ShowsAlike space u a t alpha := by
  have hnode := congrArg Node.ofText h
  rw [ofText_spaces hu, ofText_spaces ht] at hnode
  obtain ⟨hchannels, halpha⟩ := List.append_inj (Node.eq_of_function_eq hnode).2 rfl
  simp only [Triple.toList, List.cons.injEq, and_true] at hchannels
  obtain ⟨hfirst, hsecond, hthird⟩ := hchannels
  have hnodes := channels_eq_of_nodes_eq (fun _ => rfl) (Triple.ext hfirst hsecond hthird)
  by_cases ha : 1 ≤ clamp a <;> by_cases halpha' : 1 ≤ clamp alpha <;>
    simp only [ha, halpha', if_true, if_false, List.cons.injEq, reduceCtorEq] at halpha
  · exact ⟨hnodes, iff_of_true ha halpha', fun hne => absurd halpha' hne⟩
  · refine ⟨hnodes, iff_of_false ha halpha', fun _ => ?_⟩
    exact congrArg Node.render halpha.2.1

theorem showsAlike_of_text_commas_eq
    (h : Layout.text space u a .commas = Layout.text space t alpha .commas) :
    Layout.commas.ShowsAlike space u a t alpha := by
  have hname : space.name ≠ space.name ++ "a" := by cases space <;> decide
  have hnode := congrArg Node.ofText h
  rw [ofText_commas hu, ofText_commas ht, commaCall, commaCall] at hnode
  by_cases ha : 1 ≤ clamp a <;> by_cases halpha : 1 ≤ clamp alpha <;>
    simp only [ha, halpha, if_true, if_false] at hnode
  · have hargs := (Node.eq_of_function_eq hnode).2
    simp only [Triple.toList, List.intersperse, List.cons.injEq] at hargs
    obtain ⟨hfirst, -, hsecond, -, hthird, -⟩ := hargs
    have hnodes := Triple.ext hfirst hsecond hthird
    exact ⟨channels_eq_of_nodes_eq (fun _ => String.append_empty) hnodes, iff_of_true ha halpha,
      fun hne => absurd halpha hne⟩
  · exact absurd (Node.eq_of_function_eq hnode).1 hname
  · exact absurd (Node.eq_of_function_eq hnode).1.symm hname
  · have hargs := (Node.eq_of_function_eq hnode).2
    simp only [Triple.toList, List.cons_append, List.nil_append, List.intersperse,
      List.cons.injEq] at hargs
    obtain ⟨hfirst, -, hsecond, -, hthird, -, hlast, -⟩ := hargs
    have hnodes := Triple.ext hfirst hsecond hthird
    exact ⟨channels_eq_of_nodes_eq (fun _ => String.append_empty) hnodes, iff_of_false ha halpha,
      fun _ => congrArg Node.value hlast⟩

end

theorem showsAlike_of_text_hex_eq
    (h : Layout.text space u a .hex = Layout.text space t alpha .hex) :
    Layout.hex.ShowsAlike space u a t alpha := by
  have hlist := congrArg String.toList h
  change (hexText u a).toList = (hexText t alpha).toList at hlist
  have htwo : ∀ {x y : α}, Nat.digitChar (byte x / 16 % 16) = Nat.digitChar (byte y / 16 % 16) →
      Nat.digitChar (byte x % 16) = Nat.digitChar (byte y % 16) → hexByte x = hexByte y := by
    intro x y hhigh hlow
    rw [hexByte, hexByte, hexDigits_two, hexDigits_two, hhigh, hlow]
  rw [toList_hexText, toList_hexText] at hlist
  by_cases ha : 1 ≤ clamp a <;> by_cases halpha : 1 ≤ clamp alpha <;>
    simp only [ha, halpha, if_true, if_false, hexDigits_two, List.cons_append, List.nil_append,
      List.cons.injEq, reduceCtorEq, and_false, and_true, true_and] at hlist
  · obtain ⟨h1, h2, h3, h4, h5, h6⟩ := hlist
    refine ⟨Triple.ext ?_ ?_ ?_, iff_of_true ha halpha, fun hne => absurd halpha hne⟩
    · exact htwo h1 h2
    · exact htwo h3 h4
    · exact htwo h5 h6
  · obtain ⟨h1, h2, h3, h4, h5, h6, h7, h8⟩ := hlist
    refine ⟨Triple.ext ?_ ?_ ?_, iff_of_false ha halpha, fun _ => htwo h7 h8⟩
    · exact htwo h1 h2
    · exact htwo h3 h4
    · exact htwo h5 h6

/-- Texts that show the same are the same. -/
theorem Layout.ShowsAlike.text_eq {layout : Layout}
    (h : layout.ShowsAlike space u a t alpha) :
    layout.text space u a = layout.text space t alpha := by
  obtain ⟨hchannels, hcovers, halpha⟩ := h
  cases layout with
  | spaces =>
    have hchannels : Written.channels hue percentage percentage space u =
      Written.channels hue percentage percentage space t := hchannels
    rw [text, text, hchannels, spaceForm, spaceForm]
    by_cases hcover : 1 ≤ clamp alpha
    · rw [if_pos hcover, if_pos (hcovers.mpr hcover)]
    · have halpha : percentage (clamp a) = percentage (clamp alpha) := halpha hcover
      rw [if_neg hcover, if_neg (hcovers.not.mpr hcover), halpha]
  | commas =>
    have hchannels : Written.channels hue percentage (fun x => toString (byte x)) space u =
      Written.channels hue percentage (fun x => toString (byte x)) space t := hchannels
    rw [text, text, hchannels, commaForm, commaForm]
    by_cases hcover : 1 ≤ clamp alpha
    · rw [if_pos hcover, if_pos (hcovers.mpr hcover)]
    · have halpha : number (clamp a) = number (clamp alpha) := halpha hcover
      rw [if_neg hcover, if_neg (hcovers.not.mpr hcover), halpha]
  | hex =>
    have hchannels : u.map hexByte = t.map hexByte := hchannels
    have hlist : u.toList.map hexByte = t.toList.map hexByte := congrArg Triple.toList hchannels
    rw [text, text, hexText, hexText, hlist]
    by_cases hcover : 1 ≤ clamp alpha
    · rw [if_pos hcover, if_pos (hcovers.mpr hcover)]
    · have halpha : hexByte a = hexByte alpha := halpha hcover
      rw [if_neg hcover, if_neg (hcovers.not.mpr hcover), halpha]

/-- The texts of two colors of a space are the same just when they show the same. -/
theorem Layout.text_eq_iff [ClampsPlain α] {layout : Layout}
    (ht : space ≠ .rgb → Plain (rem t.first 360)) (hu : space ≠ .rgb → Plain (rem u.first 360)) :
    layout.text space u a = layout.text space t alpha ↔
      layout.ShowsAlike space u a t alpha := by
  refine ⟨fun h => ?_, Layout.ShowsAlike.text_eq⟩
  cases layout with
  | spaces => exact showsAlike_of_text_spaces_eq ht hu h
  | commas => exact showsAlike_of_text_commas_eq ht hu h
  | hex => exact showsAlike_of_text_hex_eq h

/-- The color that a text resolves to. -/
theorem Layout.resolveColor_ofText_text [ClampsPlain α] [LightCurve α] {layout : Layout}
    {ctx : Context α} (hfits : layout.Fits space) (ht : space ≠ .rgb → Plain (rem t.first 360))
    (h : layout.Rereads space t alpha u a) (hdeep : ctx.tooDeep = false) :
    resolveColor (Node.ofText (layout.text space t alpha)) ctx =
      pure (.ok (.ofChannels space u a)) := by
  cases layout with
  | spaces =>
    rw [ofText_spaces ht]
    exact resolveColor_spacedCall h hdeep
  | commas =>
    rw [ofText_commas ht]
    exact resolveColor_commaCall hfits h hdeep
  | hex =>
    obtain rfl : space = .rgb := hfits
    obtain ⟨rfl, halpha⟩ := h
    have ha : a = if 1 ≤ clamp alpha then 1 else channelOfByte (byte alpha) := by
      rw [AlphaRereads] at halpha
      split at halpha
      · next hcover => rw [if_pos hcover, halpha]
      · next hcover => rw [if_neg hcover, halpha]
    change resolveColor (Node.ofText (hexText t alpha)) ctx = _
    rw [ofText_hexText, ha]
    exact resolveColor_word_hexText ClampsPlain.byte_lt hdeep

end

end ColorMod
