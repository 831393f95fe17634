import ColorMod.Proofs.AlikeNodes
import ColorMod.Proofs.HexColors
import ColorMod.Variables

/-!
# Letter case

The case of an ASCII letter is not seen wherever a name is read: texts that differ in it have the
same lower case (`Text.lower`) and are the same hex color.  So nodes that differ only in the case of
function names, of words that are no custom properties and of units (`Node.lowered`) are alike to
resolution.

* `forall_of_upper`: what is decided for 26 letters and holds of other characters as they are.
* `Text.lower_toLower`, `Hex.bytes?_toLower`: texts in another case.
* `Node.toLower_render_lowered`: nodes in another case have texts in another case.
* `Node.letterCase`: the likeness of nodes that differ in case.
-/

namespace ColorMod

/-! ## Characters -/

/-- What holds of the ASCII letters in upper case, and of characters that are their own lower case,
holds of all. -/
theorem forall_of_upper {P : Char → Prop} (hupper : ∀ n < 26, P (Char.ofNat ('A'.toNat + n)))
    (hself : ∀ c : Char, c.toLower = c → P c) (c : Char) : P c := by
  by_cases hc : 'A'.val ≤ c.val ∧ c.val ≤ 'Z'.val
  · have hle : 'A'.toNat ≤ c.toNat ∧ c.toNat ≤ 'Z'.toNat := hc
    have hn : c.toNat - 'A'.toNat < 26 := by
      have : 'A'.toNat = 65 ∧ 'Z'.toNat = 90 := by decide
      omega
    have hp := hupper _ hn
    rwa [Nat.add_sub_cancel' hle.1, Char.ofNat_toNat] at hp
  · exact hself c (dif_neg hc)

namespace Text

/-- Only letters have a lower case other than themselves, and that is a letter again. -/
theorem toLower_eq_self_or (c : Char) : c.toLower = c ∨ c.isAlpha ∧ c.toLower.isAlpha :=
  forall_of_upper (P := fun c => c.toLower = c ∨ c.isAlpha ∧ c.toLower.isAlpha) (by decide)
    (fun _ h => .inl h) c

theorem toLower_toLower (c : Char) : c.toLower.toLower = c.toLower :=
  forall_of_upper (P := fun c => c.toLower.toLower = c.toLower) (by decide)
    (fun c h => by rw [h, h]) c

/-- A character without case is the lower case of itself only. -/
theorem toLower_eq_iff_of_not_isAlpha {d : Char} (hd : d.isAlpha = false) (c : Char) :
    c.toLower = d ↔ c = d := by
  rcases toLower_eq_self_or c with h | ⟨hc, hlower⟩
  · rw [h]
  · constructor <;> rintro rfl <;> simp_all

/-- Ranges that begin past a character do not matter for it. -/
theorem inRanges_filter (ranges : List (ℕ × ℕ)) {c : Char} {bound : ℕ} (hc : c.toNat < bound) :
    inRanges (ranges.filter fun r => r.1 < bound) c = inRanges ranges c := by
  rw [inRanges, inRanges, List.any_filter]
  congr 1
  funext r
  by_cases hr : r.1 < bound
  · simp [hr]
  · simp [hr, Nat.not_le.mpr (Nat.lt_of_lt_of_le hc (Nat.not_lt.mp hr))]

/-- The ranges in ASCII tell whether letters are in the ranges in either case. -/
theorem inRanges_toLower {ranges ascii : List (ℕ × ℕ)}
    (hascii : (ranges.filter fun r => r.1 < 128) = ascii)
    (hupper : ∀ n < 26, inRanges ascii (Char.ofNat ('A'.toNat + n)).toLower =
      inRanges ascii (Char.ofNat ('A'.toNat + n)))
    (c : Char) : inRanges ranges c.toLower = inRanges ranges c := by
  refine forall_of_upper (P := fun c => inRanges ranges c.toLower = inRanges ranges c) ?_
    (fun c h => by rw [h]) c
  intro n hn
  have hbounds : ∀ n < 26, (Char.ofNat ('A'.toNat + n)).toNat < 128 ∧
      (Char.ofNat ('A'.toNat + n)).toLower.toNat < 128 := by
    decide
  rw [← inRanges_filter ranges (hbounds n hn).1, ← inRanges_filter ranges (hbounds n hn).2, hascii]
  exact hupper n hn

theorem inRanges_casedRanges_toLower (c : Char) :
    inRanges casedRanges c.toLower = inRanges casedRanges c :=
  inRanges_toLower (by decide : _ = [(0x41, 0x5A), (0x61, 0x7A)]) (by decide) c

theorem inRanges_caseIgnorableRanges_toLower (c : Char) :
    inRanges caseIgnorableRanges c.toLower = inRanges caseIgnorableRanges c :=
  inRanges_toLower
    (by decide : _ = [(0x27, 0x27), (0x2E, 0x2E), (0x3A, 0x3A), (0x5E, 0x5E), (0x60, 0x60)])
    (by decide) c

theorem lowerChar_toLower (c : Char) : lowerChar c.toLower = lowerChar c :=
  forall_of_upper (P := fun c => lowerChar c.toLower = lowerChar c) (by decide +kernel)
    (fun c h => by rw [h]) c

theorem toLower_beq_sigma (c : Char) : (c.toLower == 'Σ') = (c == 'Σ') :=
  forall_of_upper (P := fun c => (c.toLower == 'Σ') = (c == 'Σ')) (by decide +kernel)
    (fun c h => by rw [h]) c

theorem hexValue?_toLower (c : Char) : hexValue? c.toLower = hexValue? c :=
  forall_of_upper (P := fun c => hexValue? c.toLower = hexValue? c) (by decide +kernel)
    (fun c h => by rw [h]) c

/-! ## Texts -/

theorem letterFollows_map_toLower (cs : List Char) :
    letterFollows (cs.map Char.toLower) = letterFollows cs := by
  have hdrop : (cs.map Char.toLower).dropWhile (inRanges caseIgnorableRanges) =
      (cs.dropWhile (inRanges caseIgnorableRanges)).map Char.toLower := by
    rw [List.dropWhile_map]
    simp only [Function.comp_def, inRanges_caseIgnorableRanges_toLower]
  rw [letterFollows, letterFollows, hdrop, List.head?_map, Option.map_map]
  simp only [Function.comp_def, inRanges_casedRanges_toLower]

theorem lowerFrom_map_toLower (before cs : List Char) :
    lowerFrom (before.map Char.toLower) (cs.map Char.toLower) = lowerFrom before cs := by
  induction cs generalizing before with
  | nil => rfl
  | cons c cs ih =>
    rw [List.map_cons, lowerFrom, lowerFrom, ← List.map_cons, ih, toLower_beq_sigma,
      letterFollows_map_toLower, letterFollows_map_toLower, lowerChar_toLower]

/-- The lower case of all letters does not show the case of ASCII letters. -/
theorem lower_toLower (s : String) : lower s.toLower = lower s := by
  have hfrom := lowerFrom_map_toLower [] s.toList
  rw [List.map_nil, ← String.toList_map] at hfrom
  exact congrArg String.ofList hfrom

theorem lower_eq_of_toLower_eq {s t : String} (h : s.toLower = t.toLower) : lower s = lower t := by
  rw [← lower_toLower s, h, lower_toLower]

/-! ## The lower case of ASCII letters -/

section

variable (s t : String)

theorem toList_toLower : s.toLower.toList = s.toList.map Char.toLower :=
  String.toList_map

theorem toLower_idem : s.toLower.toLower = s.toLower := by
  apply String.toList_inj.mp
  rw [toList_toLower, toList_toLower, List.map_map]
  exact List.map_congr_left fun c _ => toLower_toLower c

theorem toLower_append : (s ++ t).toLower = s.toLower ++ t.toLower := by
  apply String.toList_inj.mp
  simp only [toList_toLower, String.toList_append, List.map_append]

theorem toLower_join (texts : List String) :
    (String.join texts).toLower = String.join (texts.map String.toLower) := by
  apply String.toList_inj.mp
  rw [toList_toLower, String.toList_join, String.toList_join, List.map_flatMap, List.flatMap_map]
  simp only [toList_toLower]

/-- A text without letters is the lower case of itself only. -/
theorem toLower_eq_iff {t : String} (ht : t.toList.any Char.isAlpha = false) :
    s.toLower = t ↔ s = t := by
  have hlist : ∀ cs ds : List Char, ds.any Char.isAlpha = false →
      (cs.map Char.toLower = ds ↔ cs = ds) := by
    intro cs ds hds
    induction ds generalizing cs with
    | nil => exact List.map_eq_nil_iff
    | cons d ds ih =>
      obtain ⟨hd, hds⟩ := Bool.or_eq_false_iff.mp hds
      cases cs with
      | nil => rfl
      | cons c cs =>
        rw [List.map_cons, List.cons.injEq, List.cons.injEq, toLower_eq_iff_of_not_isAlpha hd,
          ih cs hds]
  rw [← String.toList_inj, ← String.toList_inj, toList_toLower, hlist _ _ ht]

end

end Text

open Text

/-! ## Hex colors -/

namespace Hex

theorem dropLineBreak_map_toLower (cs : List Char) :
    dropLineBreak (cs.map Char.toLower) = (dropLineBreak cs).map Char.toLower := by
  have hlast : (cs.map Char.toLower).getLast? = some '\n' ↔ cs.getLast? = some '\n' := by
    rw [List.getLast?_map, Option.map_eq_some_iff]
    simp only [toLower_eq_iff_of_not_isAlpha (d := '\n') (by decide), exists_eq_right]
  simp only [dropLineBreak, beq_iff_eq, hlast]
  split
  · rw [List.map_dropLast]
  · rfl

theorem head?_toLower_iff (s : String) :
    s.toLower.toList.head? = some '#' ↔ s.toList.head? = some '#' := by
  rw [toList_toLower, List.head?_map, Option.map_eq_some_iff]
  simp only [toLower_eq_iff_of_not_isAlpha (d := '#') (by decide), exists_eq_right]

theorem bytes?_eq_none {s : String} (h : s.toList.head? ≠ some '#') : bytes? s = none := by
  rw [← Option.not_isSome_iff_eq_none]
  intro hbytes
  obtain ⟨cs, hs⟩ := exists_of_isSome_bytes? hbytes
  exact h (by rw [hs, List.head?_cons])

/-- The digits of a hex color are of either case. -/
theorem bytes?_toLower (s : String) : bytes? s.toLower = bytes? s := by
  by_cases h : s.toList.head? = some '#'
  · obtain ⟨cs, hs⟩ := List.head?_eq_some_iff.mp h
    have hlower : s.toLower.toList = '#' :: cs.map Char.toLower := by
      rw [toList_toLower, hs, List.map_cons]
      rfl
    rw [bytes?_of_toList hlower, bytes?_of_toList hs, dropLineBreak_map_toLower, List.mapM_map]
    simp only [Function.comp_def, Text.hexValue?_toLower]
  · rw [bytes?_eq_none h, bytes?_eq_none (mt (head?_toLower_iff s).mp h)]

end Hex

/-! ## Nodes -/

namespace Node

/-- What a node says, in lower case where letters of either case say the same: in the name of a
function, in a word that names no custom property and in a unit. -/
def Head.lowered (h : Head) : Head :=
  match h.kind with
  | .function => { h with value := h.value.toLower }
  | .word => if isCustomProperty h.value then h else { h with value := h.value.toLower }
  | .number => { h with unit := h.unit.toLower }
  | _ => h

mutual

/-- The node with names, words and units in lower case. -/
def lowered : Node → Node
  | leaf h => leaf h.lowered
  | branch h cs => branch h.lowered (loweredAll cs)

def loweredAll : List Node → List Node
  | [] => []
  | c :: cs => c.lowered :: loweredAll cs

end

theorem loweredAll_eq_map (cs : List Node) : loweredAll cs = cs.map lowered := by
  induction cs with
  | nil => rfl
  | cons c cs ih => rw [loweredAll, ih, List.map_cons]

theorem head_lowered (n : Node) : n.lowered.head = n.head.lowered := by
  cases n <;> rw [lowered] <;> rfl

theorem isBranch_lowered (n : Node) : n.lowered.isBranch = n.isBranch := by
  cases n <;> rw [lowered] <;> rfl

theorem children_lowered (n : Node) : n.lowered.children = n.children.map lowered := by
  cases n with
  | leaf h => rw [lowered]; rfl
  | branch h cs => rw [lowered, loweredAll_eq_map]; rfl

section

variable (h : Head)

theorem Head.kind_lowered : h.lowered.kind = h.kind := by
  unfold lowered
  repeat' split
  all_goals rfl

theorem Head.value_lowered (hfunction : h.kind ≠ .function) (hword : h.kind ≠ .word) :
    h.lowered.value = h.value := by
  unfold lowered
  split
  · next hkind => exact absurd hkind hfunction
  · next hkind => exact absurd hkind hword
  all_goals rfl

/-- Nothing else than the case of letters has changed. -/
theorem Head.toLower_value_lowered : h.lowered.value.toLower = h.value.toLower := by
  unfold lowered
  repeat' split
  all_goals first | exact toLower_idem _ | rfl

theorem Head.toLower_unit_lowered : h.lowered.unit.toLower = h.unit.toLower := by
  unfold lowered
  repeat' split
  all_goals first | exact toLower_idem _ | rfl

end

/-! ### What is read from a node -/

section

variable (n : Node)

theorem kind_lowered : n.lowered.kind = n.kind := by
  rw [kind, kind, head_lowered, Head.kind_lowered]

theorem toLower_value_lowered : n.lowered.value.toLower = n.value.toLower := by
  rw [value, value, head_lowered, Head.toLower_value_lowered]

theorem toLower_unit_lowered : n.lowered.unit.toLower = n.unit.toLower := by
  rw [unit, unit, head_lowered, Head.toLower_unit_lowered]

theorem arguments_lowered : n.lowered.arguments = n.arguments.map lowered := by
  rw [arguments, arguments, children_lowered, map_inner, List.filter_map]
  simp only [Function.comp_def, kind_lowered]

end

variable {m n : Node}

theorem kind_eq_of_lowered (h : m.lowered = n.lowered) : m.kind = n.kind := by
  rw [← kind_lowered, h, kind_lowered]

theorem toLower_value_of_lowered (h : m.lowered = n.lowered) :
    m.value.toLower = n.value.toLower := by
  rw [← toLower_value_lowered m, h, toLower_value_lowered]

theorem toLower_unit_of_lowered (h : m.lowered = n.lowered) : m.unit.toLower = n.unit.toLower := by
  rw [← toLower_unit_lowered m, h, toLower_unit_lowered]

theorem value_eq_of_lowered (h : m.lowered = n.lowered) (hfunction : m.kind ≠ .function)
    (hword : m.kind ≠ .word) : m.value = n.value := by
  have hkind := kind_eq_of_lowered h
  have hvalue := congrArg (fun k => k.head.value) h
  simp only [head_lowered] at hvalue
  rwa [Head.value_lowered _ hfunction hword,
    Head.value_lowered _ (ne_of_eq_of_ne hkind.symm hfunction)
      (ne_of_eq_of_ne hkind.symm hword)] at hvalue

/-- Units without letters are units as they are written. -/
theorem unit_beq_of_lowered (h : m.lowered = n.lowered) {unit : String}
    (hunit : unit.toList.any Char.isAlpha = false) : (m.unit == unit) = (n.unit == unit) := by
  rw [Bool.eq_iff_iff, beq_iff_eq, beq_iff_eq, ← toLower_eq_iff m.unit hunit,
    toLower_unit_of_lowered h, toLower_eq_iff n.unit hunit]

/-! ### Texts of nodes -/

/-- A component in lower case. -/
def Component.lowered (component : Component) : Component :=
  (component.1, component.2.toLower)

theorem toLower_spaced (component : Component) :
    (spaced component).toLower = spaced component.lowered := by
  obtain ⟨kind, text⟩ := component
  have hblank : " ".toLower = " " := by decide +kernel
  cases kind <;> simp only [spaced, Component.lowered, toLower_append, hblank]

theorem toLower_joined (components : List Component) :
    (joined components).toLower = joined (components.map Component.lowered) := by
  have hfilter : (components.map Component.lowered).filter (fun c => c.1 != .space) =
      (components.filter fun c => c.1 != .space).map Component.lowered := by
    rw [List.filter_map]
    rfl
  rw [joined, joined, hfilter]
  cases components.filter fun c => c.1 != .space with
  | nil => decide +kernel
  | cons c cs =>
    have hrest : (cs.map spaced).map String.toLower = (cs.map Component.lowered).map spaced := by
      rw [List.map_map, List.map_map]
      exact List.map_congr_left fun c _ => toLower_spaced c
    rw [toLower_append, toLower_join, hrest]
    rfl

/-- The text of a node, whose case is that of its head and its components. -/
theorem toLower_assembled {h h' : Head} (hkind : h.kind = h'.kind)
    (hvalue : h.value.toLower = h'.value.toLower) (hunit : h.unit.toLower = h'.unit.toLower)
    {cs cs' : List Component} (hcs : cs.map Component.lowered = cs'.map Component.lowered) :
    (assembled h cs).toLower = (assembled h' cs').toLower := by
  have hlength : cs.length = cs'.length := by
    simpa only [List.length_map] using congrArg List.length hcs
  have hjoined : (joined cs).toLower = (joined cs').toLower := by
    rw [toLower_joined, toLower_joined, hcs]
  have hinner : (joined (inner cs)).toLower = (joined (inner cs')).toLower := by
    rw [toLower_joined, toLower_joined, ← map_inner, ← map_inner, hcs]
  unfold assembled
  rw [← hkind, ← hlength]
  split
  · exact hjoined
  · simp only [toLower_append, hvalue]
    split
    · rw [hinner]
    · rw [hjoined]
  · rw [toLower_append, toLower_append, hvalue, hunit]
  · exact hvalue

/-- The text of a node in lower case does not show the case of its letters. -/
theorem toLower_render_lowered (n : Node) : n.lowered.render.toLower = n.render.toLower := by
  induction n using induction_on_children with
  | step n ih =>
    rw [render_eq, render_eq]
    refine toLower_assembled (kind_lowered n) (toLower_value_lowered n) (toLower_unit_lowered n) ?_
    rw [children_lowered, List.map_map, List.map_map, List.map_map]
    refine List.map_congr_left fun c hc => ?_
    simp only [Function.comp_apply, Component.lowered, kind_lowered, ih c hc]

theorem toLower_outline_lowered (n : Node) : n.lowered.outline.toLower = n.outline.toLower := by
  have hfunction : n.lowered.isFunction = n.isFunction := by
    rw [isFunction, isFunction, kind_lowered]
  have hcontainer : n.lowered.isContainer = n.isContainer := by
    rw [isContainer, isContainer, kind_lowered, isBranch_lowered]
  unfold outline
  rw [hfunction, hcontainer]
  split
  · rw [toLower_append, toLower_append, toLower_value_lowered]
  split
  · rfl
  · exact toLower_render_lowered n

/-- Nodes are alike in which only the case of letters differs. -/
def letterCase : NodeLikeness where
  node m n := m.lowered = n.lowered
  text s t := s.toLower = t.toLower
  kind_eq := kind_eq_of_lowered
  name_eq h := Text.lower_eq_of_toLower_eq (toLower_value_of_lowered h)
  value_eq := value_eq_of_lowered
  isNumber_eq h := by
    rw [isNumber, isNumber, kind_eq_of_lowered h, unit_beq_of_lowered h (by decide)]
  isPercentage_eq h := by
    rw [isPercentage, isPercentage, kind_eq_of_lowered h, unit_beq_of_lowered h (by decide)]
  isHue_eq h := by
    rw [isHue, isHue, kind_eq_of_lowered h, Text.lower_eq_of_toLower_eq (toLower_unit_of_lowered h)]
  bytes?_eq {m n} h _ := by
    rw [← Hex.bytes?_toLower, toLower_value_of_lowered h, Hex.bytes?_toLower]
  hash_iff {m n} h _ := by
    rw [← Hex.head?_toLower_iff, toLower_value_of_lowered h, Hex.head?_toLower_iff]
  text_value := toLower_value_of_lowered
  text_render {m n} h := by
    rw [← toLower_render_lowered m, h, toLower_render_lowered]
  text_outline {m n} h := by
    rw [← toLower_outline_lowered m, h, toLower_outline_lowered]
  arguments {m n} h := by
    have hargs := congrArg Node.arguments h
    rwa [arguments_lowered, arguments_lowered, ← List.forall₂_eq_eq_eq, List.forall₂_map_left_iff,
      List.forall₂_map_right_iff] at hargs

end Node

end ColorMod
