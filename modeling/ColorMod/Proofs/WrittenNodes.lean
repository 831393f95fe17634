import ColorMod.Proofs.HexColors
import ColorMod.Proofs.ReadColors
import ColorMod.Proofs.Tokens

/-!
# Written colors as nodes

A color is written with spaces, with commas or in hex (`Layout`).  Each text is that of a node, and
the node resolves to a color of the space that the text is in.

* `Layout.text`: the text of a color, with `ofText_spaces`, `ofText_commas` and `ofText_hexText` from
  the text to its node and `render_spacedCall` back.
* `Layout.Rereads`: what the numbers of the text are read as.
* `resolveColor_spacedCall`, `resolveColor_commaCall`, `resolveColor_word_hexText`: the color that
  the node resolves to.
-/

namespace ColorMod

open Scalar

/-! ## The text of a call -/

namespace Node

theorem render_function (name : String) (args : List Node) : (function name args).render =
    name ++ "(" ++ joined (args.map fun n => (n.kind, n.render)) ++ ")" := by
  rw [function, render, components_eq_map, assembled]
  simp [inner]

theorem intercalate_blank_cons (s : String) (ss : List String) :
    " ".intercalate (s :: ss) = s ++ String.join (ss.map (" " ++ ·)) := by
  induction ss generalizing s with
  | nil =>
    rw [List.map_nil, String.join_nil, String.append_empty]
    rfl
  | cons t ss ih =>
    rw [String.intercalate_cons_cons, ih, List.map_cons, String.join_cons, String.append_assoc,
      String.append_assoc]

/-- Arguments that are neither blanks nor commas are set apart by blanks. -/
theorem joined_map_render {args : List Node} (h : ∀ n ∈ args, n.kind ≠ .space ∧ n.kind ≠ .comma) :
    joined (args.map fun n => (n.kind, n.render)) = " ".intercalate (args.map render) := by
  have hfilter : (args.map fun n => (n.kind, n.render)).filter (fun c => c.1 != .space) =
      args.map fun n => (n.kind, n.render) := by
    rw [List.filter_eq_self]
    intro c hc
    obtain ⟨n, hn, rfl⟩ := List.mem_map.mp hc
    simpa using (h n hn).1
  have hspaced : ∀ n ∈ args, spaced (n.kind, n.render) = " " ++ n.render := by
    intro n hn
    have hcomma := (h n hn).2
    unfold spaced
    split
    · next heq => exact absurd (congrArg Prod.fst heq) hcomma
    · next heq => cases heq; rfl
  rw [joined, hfilter]
  cases args with
  | nil => rfl
  | cons n args =>
    rw [List.map_cons, List.map_cons, intercalate_blank_cons, List.map_map]
    refine congrArg (n.render ++ String.join ·) ?_
    rw [List.map_map]
    exact List.map_congr_left fun m hm => hspaced m (List.mem_cons_of_mem _ hm)

end Node

/-! ## Layouts -/

/-- The three ways to lay out the numbers of a color. -/
inductive Layout where
  | spaces
  | commas
  | hex
  deriving DecidableEq

section

variable {α : Type} [Scalar α]

namespace Written

/-- A channel of the unit interval as a percentage. -/
def percentageNode (x : α) : Node :=
  .number (number (clamp x * 100)) "%"

/-- A hue without a unit. -/
def hueNode (x : α) : Node :=
  .number (hue x)

def byteNode (x : α) : Node :=
  .number (toString (byte x))

/-- What the channels of a space are written with: one way for a hue and one for the others; red,
green and blue are all written in the same way. -/
def channels {β : Type} (hueAs : α → β) (shareAs rgbAs : α → β) (space : ColorSpace)
    (t : Triple α) : Triple β :=
  match space with
  | .rgb => t.map rgbAs
  | .hsl | .hwb => ⟨hueAs t.first, shareAs t.second, shareAs t.third⟩

/-- The call with the channels of a color as its arguments, and with alpha after a slash unless the
color covers fully. -/
def spacedCall (space : ColorSpace) (t : Triple α) (alpha : α) : Node :=
  .function space.name ((channels hueNode percentageNode percentageNode space t).toList ++
    if 1 ≤ clamp alpha then [] else [.operator "/", percentageNode (clamp alpha)])

/-- The call with commas between its arguments; its name tells whether alpha is one of them. -/
def commaCall (space : ColorSpace) (t : Triple α) (alpha : α) : Node :=
  let nodes := (channels hueNode percentageNode byteNode space t).toList
  if 1 ≤ clamp alpha then .function space.name (nodes.intersperse .comma)
  else .function (space.name ++ "a")
    ((nodes ++ [Node.number (number (clamp alpha))]).intersperse .comma)

def hexText (t : Triple α) (alpha : α) : String :=
  "#" ++ "".intercalate (t.toList.map hexByte) ++ if 1 ≤ clamp alpha then "" else hexByte alpha

end Written

open Written

namespace Layout

/-- The text of channels of a space and alpha; hex is for rgb channels only. -/
def text (space : ColorSpace) (t : Triple α) (alpha : α) : Layout → String
  | spaces => spaceForm space.name (channels hue percentage percentage space t).toList alpha
  | commas =>
    commaForm space.name (channels hue percentage (fun x => toString (byte x)) space t).toList alpha
  | hex => hexText t alpha

end Layout

/-! ## From a node to its text -/

theorem map_render_channels {rgbNode : α → Node} {rgbText : α → String}
    (hrgb : ∀ x, (rgbNode x).render = rgbText x) (space : ColorSpace) (t : Triple α) :
    (channels hueNode percentageNode rgbNode space t).map Node.render =
      channels hue percentage rgbText space t := by
  have hhue : (hueNode t.first).render = hue t.first := String.append_empty
  cases space with
  | rgb => rw [channels, channels, Triple.map, Triple.map, Triple.map, hrgb, hrgb, hrgb]
  | hsl => rw [channels, Triple.map, hhue]; rfl
  | hwb => rw [channels, Triple.map, hhue]; rfl

theorem kind_of_mem_channels {space : ColorSpace} {t : Triple α} {rgbNode : α → Node}
    (hrgb : ∀ x, (rgbNode x).kind = .number) {n : Node}
    (hn : n ∈ (channels hueNode percentageNode rgbNode space t).toList) : n.kind = .number := by
  cases space <;>
    simp only [channels, Triple.toList, Triple.map, List.mem_cons, List.not_mem_nil,
      or_false] at hn <;>
    rcases hn with rfl | rfl | rfl <;> first | rfl | exact hrgb _

theorem render_spacedCall (space : ColorSpace) (t : Triple α) (alpha : α) :
    (spacedCall space t alpha).render = Layout.text space t alpha .spaces := by
  have hkinds : ∀ n ∈ (channels hueNode percentageNode percentageNode space t).toList ++
      (if 1 ≤ clamp alpha then [] else [.operator "/", percentageNode (clamp alpha)]),
      n.kind ≠ .space ∧ n.kind ≠ .comma := by
    intro n hn
    rcases List.mem_append.mp hn with hn | hn
    · rw [kind_of_mem_channels (fun _ => rfl) hn]
      decide
    · split at hn
      · cases hn
      · rcases List.mem_cons.mp hn with rfl | hn
        · decide
        · rw [List.mem_singleton.mp hn]
          exact ⟨nofun, nofun⟩
  have hchannels : (channels hueNode percentageNode percentageNode space t).toList.map
      Node.render = (channels hue percentage percentage space t).toList := by
    have hrgb : ∀ x : α, (percentageNode x).render = percentage x := fun _ => rfl
    rw [← map_render_channels hrgb]
    rfl
  rw [spacedCall, Node.render_function, Node.joined_map_render hkinds, List.map_append, hchannels,
    Layout.text, spaceForm]
  split
  · rw [List.map_nil, List.append_nil, String.append_empty]
  · have hslash : ∀ texts : Triple String, ∀ s : String,
        " ".intercalate (texts.toList ++ ["/", s]) = " ".intercalate texts.toList ++ " / " ++ s := by
      intro texts s
      have hblanks : " / " ++ s = " " ++ ("/" ++ (" " ++ s)) := by
        rw [← String.append_assoc, ← String.append_assoc]
        rfl
      rw [String.append_assoc, hblanks]
      simp only [Triple.toList, List.cons_append, List.nil_append, Node.intercalate_blank_cons,
        List.map_cons, List.map_nil, String.join_cons, String.join_nil, String.append_empty,
        String.append_assoc]
    change _ ++ " ".intercalate (_ ++ ["/", percentage (clamp alpha)]) ++ _ = _
    rw [hslash]
    simp only [String.append_assoc]

/-! ## From a text to its node -/

/-- The number is finite and not negative, so that its text starts with a digit. -/
def Written.Plain (x : α) : Prop :=
  ∃ q, value? x = some q ∧ 0 ≤ q

theorem ofRun_number {x : α} (h : Plain x) : Node.ofRun (number x) = Node.number (number x) := by
  obtain ⟨q, hq, h0⟩ := h
  rw [number, hq]
  exact Node.ofRun_fixedText h0

theorem ofRun_percentage {x : α} (h : Plain (clamp x * 100)) :
    Node.ofRun (percentage x) = percentageNode x := by
  obtain ⟨q, hq, h0⟩ := h
  rw [percentage, percentageNode, number, hq]
  exact Node.ofRun_fixedText_percent h0

/-- What is clamped can be printed. -/
class ClampsPlain (α : Type) [Scalar α] : Prop where
  clamp (x : α) : Plain (Scalar.clamp x)
  percentage (x : α) : Plain (Scalar.clamp x * 100)
  byte_lt (x : α) : byte x < 256
  isSome_ofDecimal (n : ℕ) : n < 256 → (value? (ofDecimal n 0 : α)).isSome

variable {space : ColorSpace} {t : Triple α}

theorem isRun_of_mem_channels {rgbText : α → String} (hrgb : ∀ x, Node.IsRun (rgbText x))
    {s : String} (hs : s ∈ (channels hue percentage rgbText space t).toList) : Node.IsRun s := by
  cases space <;>
    simp only [channels, Triple.toList, Triple.map, List.mem_cons, List.not_mem_nil,
      or_false] at hs <;>
    rcases hs with rfl | rfl | rfl <;>
    first | exact hrgb _ | exact Node.isRun_hue _ | exact Node.isRun_percentage _

theorem not_paren_of_mem_name {c : Char} (hc : c ∈ space.name.toList) : c ≠ '(' := by
  rintro rfl
  cases space <;> simp [ColorSpace.name] at hc

section

variable [ClampsPlain α]

theorem map_ofRun_channels {rgbText : α → String} {rgbNode : α → Node}
    (hrgb : ∀ x, Node.ofRun (rgbText x) = rgbNode x)
    (hhue : space ≠ .rgb → Plain (rem t.first 360)) :
    (channels hue percentage rgbText space t).toList.map Node.ofRun =
      (channels hueNode percentageNode rgbNode space t).toList := by
  have hpercentage : ∀ x : α, Node.ofRun (percentage x) = percentageNode x := fun x =>
    ofRun_percentage (ClampsPlain.percentage x)
  cases space with
  | rgb =>
    change [Node.ofRun (rgbText _), Node.ofRun (rgbText _), Node.ofRun (rgbText _)] = _
    rw [hrgb, hrgb, hrgb]
    rfl
  | hsl =>
    change [Node.ofRun (number _), Node.ofRun (percentage _), Node.ofRun (percentage _)] = _
    rw [hpercentage, hpercentage, ofRun_number (hhue nofun)]
    rfl
  | hwb =>
    change [Node.ofRun (number _), Node.ofRun (percentage _), Node.ofRun (percentage _)] = _
    rw [hpercentage, hpercentage, ofRun_number (hhue nofun)]
    rfl

theorem ofText_spaces (hhue : space ≠ .rgb → Plain (rem t.first 360)) (alpha : α) :
    Node.ofText (Layout.text space t alpha .spaces) = spacedCall space t alpha := by
  have hpercentage : ∀ x : α, Node.ofRun (percentage x) = percentageNode x := fun x =>
    ofRun_percentage (ClampsPlain.percentage x)
  rw [Layout.text, Node.ofText_spaceForm (fun c => not_paren_of_mem_name)
    fun s => isRun_of_mem_channels Node.isRun_percentage, map_ofRun_channels hpercentage hhue,
    hpercentage]
  rfl

theorem ofText_commas (hhue : space ≠ .rgb → Plain (rem t.first 360)) (alpha : α) :
    Node.ofText (Layout.text space t alpha .commas) = commaCall space t alpha := by
  rw [Layout.text, Node.ofText_commaForm (fun c => not_paren_of_mem_name)
    fun s => isRun_of_mem_channels fun _ => Node.isRun_toString _, List.map_append,
    map_ofRun_channels (fun _ => Node.ofRun_toString _) hhue, List.map_singleton,
    ofRun_number (ClampsPlain.clamp alpha)]
  rfl

end

/-! ## Hex -/

theorem hexDigits_two (n : ℕ) :
    Text.hexDigits 2 n = [Nat.digitChar (n / 16 % 16), Nat.digitChar (n % 16)] := by
  have hunits : n / Nat.pow 16 0 = n := Nat.div_one n
  change [Nat.digitChar (n / 16 % 16), Nat.digitChar (n / Nat.pow 16 0 % 16)] = _
  rw [hunits]

theorem hexValue?_digitChar {d : ℕ} (h : d < 16) : Text.hexValue? (Nat.digitChar d) = some d := by
  have hall : ∀ d < 16, Text.hexValue? (Nat.digitChar d) = some d := by decide
  exact hall d h

theorem toList_hexText (t : Triple α) (alpha : α) : (hexText t alpha).toList =
    '#' :: (Text.hexDigits 2 (byte t.first) ++ Text.hexDigits 2 (byte t.second) ++
      Text.hexDigits 2 (byte t.third) ++
      if 1 ≤ clamp alpha then [] else Text.hexDigits 2 (byte alpha)) := by
  rw [hexText]
  simp only [Triple.toList, List.map_cons, List.map_nil, String.intercalate_cons_cons,
    String.append_empty, hexByte]
  split <;> simp

theorem ofText_hexText (t : Triple α) (alpha : α) :
    Node.ofText (hexText t alpha) = .word (hexText t alpha) := by
  have hdigit : ∀ d < 16, (Nat.digitChar d != '(') = true := by decide
  have hdigits : ∀ n : ℕ, ∀ c ∈ Text.hexDigits 2 n, (c != '(') = true := by
    intro n c hc
    rw [hexDigits_two] at hc
    rcases List.mem_cons.mp hc with rfl | hc
    · exact hdigit _ (Nat.mod_lt _ (by decide))
    · rw [List.mem_singleton.mp hc]
      exact hdigit _ (Nat.mod_lt _ (by decide))
  have hrest : (hexText t alpha).toList.dropWhile (· != '(') = [] := by
    rw [List.dropWhile_eq_nil_iff, toList_hexText]
    intro c hc
    simp only [List.mem_cons, List.mem_append] at hc
    rcases hc with rfl | ((hc | hc) | hc) | hc
    · decide
    · exact hdigits _ c hc
    · exact hdigits _ c hc
    · exact hdigits _ c hc
    · split at hc
      · cases hc
      · exact hdigits _ c hc
  rw [Node.ofText, hrest]

theorem bytes?_hexText {t : Triple α} {alpha : α} (h : ∀ x : α, byte x < 256) :
    Hex.bytes? (hexText t alpha) =
      some (t.map byte, if 1 ≤ clamp alpha then none else some (byte alpha)) := by
  have hlast : ∀ d < 16, Nat.digitChar d ≠ '\n' := by decide
  have hlow : ∀ n : ℕ, n % 16 < 16 := fun n => Nat.mod_lt n (by decide)
  have hbreak : ∀ (cs : List Char) (n : ℕ),
      Hex.dropLineBreak (cs ++ Text.hexDigits 2 n) = cs ++ Text.hexDigits 2 n := by
    intro cs n
    have hne : (cs ++ Text.hexDigits 2 n).getLast? ≠ some '\n' := by
      rw [hexDigits_two, List.getLast?_append]
      simp [hlast _ (hlow n)]
    rw [Hex.dropLineBreak, if_neg (by simpa using hne)]
  have hvalue : ∀ n : ℕ, Text.hexValue? (Nat.digitChar (n % 16)) = some (n % 16) := fun n =>
    hexValue?_digitChar (hlow n)
  have hbyte : ∀ x : α, 16 * (byte x / 16 % 16) + byte x % 16 = byte x := by
    intro x
    have := h x
    omega
  rw [Hex.bytes?, toList_hexText]
  split
  · next cs heq =>
    cases heq
    split
    · rw [List.append_nil, hbreak]
      simp only [hexDigits_two, List.cons_append, List.nil_append, List.mapM_cons, List.mapM_nil,
        hvalue, Option.bind_eq_bind, Option.bind_some, Option.pure_def, hbyte, Triple.map]
    · rw [hbreak]
      simp only [hexDigits_two, List.cons_append, List.nil_append, List.mapM_cons, List.mapM_nil,
        hvalue, Option.bind_eq_bind, Option.bind_some, Option.pure_def, hbyte, Triple.map]
  · next hne => exact absurd rfl (hne _)

theorem resolveHex_word_hexText {t : Triple α} {alpha : α} (h : ∀ x : α, byte x < 256)
    (ctx : Context α) :
    Component.resolveHex (.word (hexText t alpha)) ctx =
      pure (.ok (.ofChannels .rgb (t.map fun x => channelOfByte (byte x))
        (if 1 ≤ clamp alpha then 1 else channelOfByte (byte alpha)))) := by
  refine Component.resolveHex_of_color? rfl ?_ ctx
  change Hex.color? (hexText t alpha) = _
  rw [Hex.color?, bytes?_hexText h]
  split <;> rfl

/-! ## What a text is read as -/

namespace Written

/-- A percentage is read back as a share of one. -/
def PercentageReads (x y : α) : Prop :=
  ∃ z, ofText? (number (clamp x * 100)) = some z ∧ y = z / 100

def HueReads (x y : α) : Prop :=
  ofText? (hue x) = some y

def ByteReads (x y : α) : Prop :=
  y = channelOfByte (byte x)

/-- Each channel of a space is read back as it is written. -/
def ChannelsRead (rgbReads : α → α → Prop) (space : ColorSpace) (t u : Triple α) : Prop :=
  match space with
  | .rgb => rgbReads t.first u.first ∧ rgbReads t.second u.second ∧ rgbReads t.third u.third
  | .hsl | .hwb =>
    HueReads t.first u.first ∧ PercentageReads t.second u.second ∧ PercentageReads t.third u.third

end Written

namespace Layout

/-- The channels of a text are read back as they are written. -/
def ChannelsReread (space : ColorSpace) (t u : Triple α) : Layout → Prop
  | spaces => ChannelsRead PercentageReads space t u
  | commas => ChannelsRead ByteReads space t u
  | hex => u = t.map fun x => channelOfByte (byte x)

/-- An alpha that is not shown is read as full, and any other as it is written. -/
def AlphaRereads (alpha a : α) (layout : Layout) : Prop :=
  if 1 ≤ clamp alpha then a = 1
  else
    match layout with
    | spaces => PercentageReads (clamp alpha) a
    | commas => ofText? (number (clamp alpha)) = some a
    | hex => a = channelOfByte (byte alpha)

/-- The text of channels `t` and of `alpha` is read as channels `u` and as `a`. -/
structure Rereads (layout : Layout) (space : ColorSpace) (t : Triple α) (alpha : α) (u : Triple α)
    (a : α) : Prop where
  channels : layout.ChannelsReread space t u
  alpha : layout.AlphaRereads alpha a

end Layout

section

variable [LightCurve α] {ctx : Context α} {u : Triple α} {alpha a : α}

theorem reads_channels {rgbNode : α → Node} {rgbReads : α → α → Prop}
    (hrgb : ∀ x y, rgbReads x y → Component.rgbValue.Finds (meaning (rgbNode x)) y)
    (hkind : ∀ x, (rgbNode x).kind = .number) (h : ChannelsRead rgbReads space t u) :
    space.Reads (channels hueNode percentageNode rgbNode space t) u := by
  have hpercentage : ∀ x y : α, PercentageReads x y →
      Component.percentage.Finds (meaning (percentageNode x)) y := by
    rintro x y ⟨z, hz, rfl⟩
    exact finds_percentage hz
  refine ⟨?_, fun n hn => by rw [kind_of_mem_channels hkind hn]; decide⟩
  cases space with
  | rgb => exact ⟨hrgb _ _ h.1, hrgb _ _ h.2.1, hrgb _ _ h.2.2⟩
  | hsl => exact ⟨finds_hue h.1, hpercentage _ _ h.2.1, hpercentage _ _ h.2.2⟩
  | hwb => exact ⟨finds_hue h.1, hpercentage _ _ h.2.1, hpercentage _ _ h.2.2⟩

theorem resolveColor_spacedCall (h : Layout.spaces.Rereads space t alpha u a)
    (hdeep : ctx.tooDeep = false) :
    resolveColor (spacedCall space t alpha) ctx = pure (.ok (.ofChannels space u a)) := by
  obtain ⟨hchannels, halpha⟩ := h
  have hreads : space.Reads (channels hueNode percentageNode percentageNode space t) u :=
    reads_channels (fun x y ⟨z, hz, hy⟩ => hy ▸ finds_rgbValue_percentage hz) (fun _ => rfl)
      hchannels
  rw [Layout.AlphaRereads] at halpha
  rw [spacedCall]
  split at halpha
  · next hopaque =>
    rw [if_pos hopaque, List.append_nil, halpha]
    exact resolveColor_spaced hreads hdeep
  · next hopaque =>
    obtain ⟨z, hz, rfl⟩ := halpha
    rw [if_neg hopaque]
    exact resolveColor_spaced_alpha hreads (finds_alpha_percentage hz) nofun hdeep

theorem resolveColor_word_of_head {text : String} (hhead : text.toList.head? = some '#')
    (hdeep : ctx.tooDeep = false) :
    resolveColor (.word text) ctx = Component.resolveHex (.word text) ctx := by
  rw [resolveColor_eq, resolveNode, if_neg (by simp [hdeep])]
  exact if_pos hhead

theorem resolveColor_word_hexText (hbyte : ∀ x : α, byte x < 256) (hdeep : ctx.tooDeep = false) :
    resolveColor (.word (hexText t alpha)) ctx =
      pure (.ok (.ofChannels .rgb (t.map fun x => channelOfByte (byte x))
        (if 1 ≤ clamp alpha then 1 else channelOfByte (byte alpha)))) := by
  have hhead : (hexText t alpha).toList.head? = some '#' := by rw [toList_hexText]; rfl
  rw [resolveColor_word_of_head hhead hdeep]
  exact resolveHex_word_hexText hbyte ctx

variable [ClampsPlain α]

theorem finds_byteNode (x : α) : Component.rgbValue.Finds (meaning (byteNode x))
    (channelOfByte (byte x) : α) := by
  refine finds_rgbValue_number (x := ofDecimal (byte x) 0) ?_
  have hsome := ClampsPlain.isSome_ofDecimal (α := α) (byte x) (ClampsPlain.byte_lt x)
  rw [ofText?, Numeral.parse?_toString]
  exact if_pos hsome

theorem resolveColor_commaCall (hspace : space ≠ .hwb)
    (h : Layout.commas.Rereads space t alpha u a) (hdeep : ctx.tooDeep = false) :
    resolveColor (commaCall space t alpha) ctx = pure (.ok (.ofChannels space u a)) := by
  obtain ⟨hchannels, halpha⟩ := h
  have hreads : space.Reads (channels hueNode percentageNode byteNode space t) u :=
    reads_channels (fun x y hy => (hy : y = channelOfByte (byte x)) ▸ finds_byteNode x)
      (fun _ => rfl) hchannels
  rw [Layout.AlphaRereads] at halpha
  rw [commaCall]
  split at halpha
  · next hopaque =>
    rw [if_pos hopaque, halpha]
    exact resolveColor_commas hspace hreads hdeep
  · next hopaque =>
    rw [if_neg hopaque]
    exact resolveColor_commas_alpha hspace hreads (finds_alpha_number halpha) nofun hdeep

end

end

end ColorMod
