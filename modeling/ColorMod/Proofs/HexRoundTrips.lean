import Mathlib.Algebra.Order.Round
import ColorMod.Proofs.RoundTrips

/-!
# Hex colors read and written

In exact arithmetic a byte is written as it was read, so the text of a hex color is the color's own,
in lower case and in its long form.  Written and read the other way round, a channel moves by half a
byte at most.

* `Hex.exists_bytes?_eq`: the bytes of a hex color are those of its long form.
* `byte_channelOfByte_exact`, `abs_channelOfByte_byte_sub_le`: bytes and channels.
* `Hex.exists_color?_toCss`: a hex color is written in its shown form.
* `Color.exists_reread_hex`: a color that is written in hex and read.
* `Color.hex_roundTrips`: both directions together.
-/

namespace ColorMod

open Scalar Written

/-! ## Forms of hex digits -/

namespace Hex

open Text

/-- The digits in lower case, where each digit of a short form stands twice. -/
def longForm (cs : List Char) : List Char :=
  (if cs.length ≤ 4 then cs.flatMap fun c => [c, c] else cs).map Char.toLower

/-- The long form without an alpha that covers fully. -/
def shownForm (cs : List Char) : List Char :=
  if (longForm cs).drop 6 = ['f', 'f'] then (longForm cs).take 6 else longForm cs

/-- The text of digits. -/
def text (cs : List Char) : String :=
  .ofList ('#' :: cs)

theorem hexDigits_pair {c d : Char} (hc : c ∈ digits) (hd : d ∈ digits) :
    16 * value c + value d < 256 ∧
      hexDigits 2 (16 * value c + value d) = [c.toLower, d.toLower] := by
  obtain ⟨-, hlt, hlower⟩ := hexValue?_of_mem hc
  obtain ⟨-, hlt', hlower'⟩ := hexValue?_of_mem hd
  have hhigh : (16 * value c + value d) / 16 % 16 = value c := by omega
  have hlow : (16 * value c + value d) % 16 = value d := by omega
  refine ⟨by omega, ?_⟩
  rw [hexDigits_two, hhigh, hlow, hlower, hlower']

theorem hexDigits_twice {c : Char} (hc : c ∈ digits) :
    17 * value c < 256 ∧ hexDigits 2 (17 * value c) = [c.toLower, c.toLower] := by
  have hvalue : 17 * value c = 16 * value c + value c := by omega
  rw [hvalue]
  exact hexDigits_pair hc hc

theorem bytes?_text {cs : List Char} (h : Digits cs) :
    bytes? (text cs) = bytesOf? (cs.map value) := by
  have hbreak : dropLineBreak cs = cs := by
    refine if_neg fun hlast => ?_
    have hmem := List.mem_of_getLast? (beq_iff_eq.mp hlast)
    exact absurd (h.mem _ hmem) (by decide)
  rw [text, bytes?_of_toList String.toList_ofList, hbreak, mapM_hexValue?_of_mem h.mem,
    Option.bind_some]

/-- The bytes of a color, alpha among them if it is given. -/
structure AreBytes (rgb : Triple ℕ) (alpha? : Option ℕ) : Prop where
  first : rgb.first < 256
  second : rgb.second < 256
  third : rgb.third < 256
  alpha : ∀ a ∈ alpha?, a < 256

/-- The digits of bytes, two for each. -/
def digitsOf (rgb : Triple ℕ) (alpha? : Option ℕ) : List Char :=
  hexDigits 2 rgb.first ++ hexDigits 2 rgb.second ++ hexDigits 2 rgb.third ++
    alpha?.elim [] (hexDigits 2)

/-- The bytes of a hex color are those of its long form. -/
theorem exists_bytes?_eq {cs : List Char} (h : Digits cs) :
    ∃ rgb alpha?, bytes? (text cs) = some (rgb, alpha?) ∧ AreBytes rgb alpha? ∧
      longForm cs = digitsOf rgb alpha? := by
  have hbytes := bytes?_text h
  obtain ⟨hlength, hmem⟩ := h
  -- In a short form each byte has one digit twice, in a long form two digits.
  simp only [List.mem_cons, List.not_mem_nil, or_false] at hlength
  rcases hlength with hlength | hlength | hlength | hlength
  · obtain ⟨r, g, b, rfl⟩ := List.length_eq_three.mp hlength
    obtain ⟨hr, hr'⟩ := hexDigits_twice (hmem r (by simp))
    obtain ⟨hg, hg'⟩ := hexDigits_twice (hmem g (by simp))
    obtain ⟨hb, hb'⟩ := hexDigits_twice (hmem b (by simp))
    refine ⟨_, _, hbytes, ⟨hr, hg, hb, nofun⟩, ?_⟩
    rw [digitsOf, hr', hg', hb']
    rfl
  · match cs, hlength with
    | [r, g, b, a], _ =>
      obtain ⟨hr, hr'⟩ := hexDigits_twice (hmem r (by simp))
      obtain ⟨hg, hg'⟩ := hexDigits_twice (hmem g (by simp))
      obtain ⟨hb, hb'⟩ := hexDigits_twice (hmem b (by simp))
      obtain ⟨ha, ha'⟩ := hexDigits_twice (hmem a (by simp))
      refine ⟨_, _, hbytes, ⟨hr, hg, hb, fun _ h => Option.some.inj h ▸ ha⟩, ?_⟩
      rw [digitsOf, hr', hg', hb', Option.elim_some, ha']
      rfl
  · match cs, hlength with
    | [r, r', g, g', b, b'], _ =>
      obtain ⟨hr, hr'⟩ := hexDigits_pair (hmem r (by simp)) (hmem r' (by simp))
      obtain ⟨hg, hg'⟩ := hexDigits_pair (hmem g (by simp)) (hmem g' (by simp))
      obtain ⟨hb, hb'⟩ := hexDigits_pair (hmem b (by simp)) (hmem b' (by simp))
      refine ⟨_, _, hbytes, ⟨hr, hg, hb, nofun⟩, ?_⟩
      rw [digitsOf, hr', hg', hb']
      rfl
  · match cs, hlength with
    | [r, r', g, g', b, b', a, a'], _ =>
      obtain ⟨hr, hr'⟩ := hexDigits_pair (hmem r (by simp)) (hmem r' (by simp))
      obtain ⟨hg, hg'⟩ := hexDigits_pair (hmem g (by simp)) (hmem g' (by simp))
      obtain ⟨hb, hb'⟩ := hexDigits_pair (hmem b (by simp)) (hmem b' (by simp))
      obtain ⟨ha, ha'⟩ := hexDigits_pair (hmem a (by simp)) (hmem a' (by simp))
      refine ⟨_, _, hbytes, ⟨hr, hg, hb, fun _ h => Option.some.inj h ▸ ha⟩, ?_⟩
      rw [digitsOf, hr', hg', hb', Option.elim_some, ha']
      rfl

end Hex

/-! ## Bytes and channels -/

theorem channelOfByte_eq (n : ℕ) : (channelOfByte n : ℚ) = n / 255 := by
  change (n : ℚ) * (10 : ℚ) ^ (0 : ℤ) / 255 = _
  rw [zpow_zero, mul_one]

theorem byte_eq_round (x : ℚ) : byte x = (round (clamp x * 255)).toNat := by
  rw [round_eq]
  change ⌊clamp x * 255 + 0.5⌋.toNat = _
  norm_num

theorem channelOfByte_mem {n : ℕ} (hn : n < 256) :
    0 ≤ (channelOfByte n : ℚ) ∧ (channelOfByte n : ℚ) ≤ 1 := by
  have hle : (n : ℚ) ≤ 255 := by exact_mod_cast Nat.le_of_lt_succ hn
  rw [channelOfByte_eq]
  exact ⟨by positivity, (div_le_one (by norm_num)).mpr hle⟩

/-- A byte is the nearest one to its own channel. -/
theorem byte_channelOfByte_exact {n : ℕ} (hn : n < 256) : byte (channelOfByte n : ℚ) = n := by
  obtain ⟨h0, h1⟩ := channelOfByte_mem hn
  rw [byte_eq_round, clamp_of_mem h0 h1, channelOfByte_eq, div_mul_cancel₀ _ (by norm_num),
    round_natCast, Int.toNat_natCast]

/-- Only the last byte covers fully. -/
theorem one_le_clamp_channelOfByte_iff_exact {n : ℕ} (hn : n < 256) :
    (1 : ℚ) ≤ clamp (channelOfByte n) ↔ n = 255 := by
  obtain ⟨h0, h1⟩ := channelOfByte_mem hn
  rw [clamp_of_mem h0 h1, channelOfByte_eq, one_le_div (by norm_num)]
  constructor
  · intro h
    have hle : 255 ≤ n := by exact_mod_cast h
    omega
  · rintro rfl
    norm_num

/-- A channel is half a byte away from its nearest byte, at most. -/
theorem abs_channelOfByte_byte_sub_le {x : ℚ} (h0 : 0 ≤ x) (h1 : x ≤ 1) :
    |channelOfByte (byte x) - x| ≤ 1 / 510 := by
  have hround : 0 ≤ round (x * 255) := by
    rw [round_eq]
    positivity
  have hbyte : ((byte x : ℕ) : ℚ) = round (x * 255) := by
    rw [byte_eq_round, clamp_of_mem h0 h1]
    exact_mod_cast Int.toNat_of_nonneg hround
  have hhalf := abs_le.mp (abs_sub_round (x * 255))
  rw [channelOfByte_eq, hbyte, abs_le]
  constructor <;> linarith

/-! ## Colors -/

theorem Color.toCss_hex {c : Color ℚ} {t : Triple ℚ} (ht : c.rgb = .ok t) :
    c.toCss .hex = .ok (hexText t c.alpha) := by
  rw [toCss, ht]
  rfl

namespace Hex

/-- Bytes are written as they are, but for an alpha that covers fully. -/
theorem toList_hexText_channelOfByte {rgb : Triple ℕ} {alpha? : Option ℕ}
    (h : AreBytes rgb alpha?) :
    (hexText (rgb.map (channelOfByte (α := ℚ))) (alpha?.elim 1 channelOfByte)).toList =
      '#' :: digitsOf rgb (alpha?.filter (· ≠ 255)) := by
  rw [toList_hexText, digitsOf, Triple.map, byte_channelOfByte_exact h.first,
    byte_channelOfByte_exact h.second, byte_channelOfByte_exact h.third, List.cons_inj_right,
    List.append_right_inj]
  cases alpha? with
  | none => exact if_pos (clamp_of_mem zero_le_one le_rfl).ge
  | some a =>
    have ha := h.alpha a rfl
    rw [Option.elim_some, byte_channelOfByte_exact ha]
    by_cases hfull : a = 255
    · rw [if_pos ((one_le_clamp_channelOfByte_iff_exact ha).mpr hfull), hfull]
      rfl
    · rw [if_neg fun h => hfull ((one_le_clamp_channelOfByte_iff_exact ha).mp h),
        Option.filter_some_pos (by simpa using hfull)]
      rfl

theorem shownForm_eq {cs : List Char} {rgb : Triple ℕ} {alpha? : Option ℕ}
    (h : AreBytes rgb alpha?) (hlong : longForm cs = digitsOf rgb alpha?) :
    shownForm cs = digitsOf rgb (alpha?.filter (· ≠ 255)) := by
  have hdrop : (longForm cs).drop 6 = alpha?.elim [] (Text.hexDigits 2) := by
    simp only [hlong, digitsOf, hexDigits_two]
    rfl
  have htake : (longForm cs).take 6 = digitsOf rgb none := by
    simp only [hlong, digitsOf, hexDigits_two]
    rfl
  rw [shownForm, hdrop, htake, hlong]
  cases alpha? with
  | none => rfl
  | some a =>
    have hff : ∀ a < 256, Text.hexDigits 2 a = ['f', 'f'] ↔ a = 255 := by decide +kernel
    rw [Option.elim_some]
    by_cases hfull : a = 255
    · rw [if_pos ((hff a (h.alpha a rfl)).mpr hfull), hfull]
      rfl
    · rw [if_neg fun heq => hfull ((hff a (h.alpha a rfl)).mp heq),
        Option.filter_some_pos (by simpa using hfull)]

/-- A hex color is written in the form that is shown of it. -/
theorem exists_color?_toCss {cs : List Char} (h : Digits cs) :
    ∃ c : Color ℚ, Hex.color? (text cs) = some c ∧ c.toCss .hex = .ok (text (shownForm cs)) := by
  obtain ⟨rgb, alpha?, hbytes, hlt, hlong⟩ := exists_bytes?_eq h
  refine ⟨.ofChannels .rgb (rgb.map channelOfByte) (alpha?.elim 1 channelOfByte), ?_, ?_⟩
  · rw [Hex.color?, hbytes]
    rfl
  · rw [Color.toCss_hex rfl]
    refine congrArg Except.ok (String.toList_injective ?_)
    rw [text, String.toList_ofList, shownForm_eq hlt hlong]
    exact toList_hexText_channelOfByte hlt

end Hex

section

variable [LightCurve ℚ]

/-- A color of the unit interval is written in hex, and the text is read as an rgb color of which
each number is half a byte away at most. -/
theorem Color.exists_reread_hex {c : Color ℚ} (hchannels : c.space = .rgb → c.channels.InUnit)
    (h0 : 0 ≤ c.alpha) (h1 : c.alpha ≤ 1) :
    ∃ t text d, c.rgb = .ok t ∧ c.toCss .hex = .ok text ∧
      (∀ ctx : Context ℚ, Component.resolveHex (.word text) ctx = pure (.ok d)) ∧
      (∀ ctx : Context ℚ, ctx.tooDeep = false →
        resolveColor (Node.ofText text) ctx = pure (.ok d)) ∧
      d.space = .rgb ∧ t.Near (1 / 510) d.channels ∧ |d.alpha - c.alpha| ≤ 1 / 510 := by
  obtain ⟨t, ht, hother⟩ := c.exists_rgb
  have hunit : t.InUnit := by
    by_cases hspace : c.space = .rgb
    · have hown : c.rgb = .ok c.channels := by rw [rgb, hspace]
      cases ht.symm.trans hown
      exact hchannels hspace
    · exact hother hspace
  refine ⟨t, _, _, ht, toCss_hex ht, fun ctx => resolveHex_word_hexText ClampsPlain.byte_lt ctx,
    fun ctx hdeep => ?_, rfl, ⟨?_, ?_, ?_⟩, ?_⟩
  · rw [ofText_hexText]
    exact resolveColor_word_hexText ClampsPlain.byte_lt hdeep
  · exact abs_channelOfByte_byte_sub_le hunit.first.1 hunit.first.2
  · exact abs_channelOfByte_byte_sub_le hunit.second.1 hunit.second.2
  · exact abs_channelOfByte_byte_sub_le hunit.third.1 hunit.third.2
  · change |(if 1 ≤ clamp c.alpha then 1 else channelOfByte (byte c.alpha)) - c.alpha| ≤ 1 / 510
    rw [clamp_of_mem h0 h1]
    split_ifs with hcover
    · rw [le_antisymm h1 hcover, sub_self, abs_zero]
      norm_num
    · exact abs_channelOfByte_byte_sub_le h0 h1

/-- A hex color resolves to a color that is written in the form that is shown of it.  What a color
is written as in hex resolves to a color of which each number is half a byte away at most. -/
theorem Color.hex_roundTrips :
    (∀ cs, Hex.Digits cs → ∃ c : Color ℚ,
      (∀ ctx, Component.resolveHex (.word (Hex.text cs)) ctx = pure (.ok c)) ∧
      (∀ ctx, ctx.tooDeep = false → resolveColor (.word (Hex.text cs)) ctx = pure (.ok c)) ∧
      c.toCss .hex = .ok (Hex.text (Hex.shownForm cs))) ∧
    ∀ c : Color ℚ, (c.space = .rgb → c.channels.InUnit) → 0 ≤ c.alpha → c.alpha ≤ 1 →
      ∃ t text d, c.rgb = .ok t ∧ c.toCss .hex = .ok text ∧
        (∀ ctx : Context ℚ, Component.resolveHex (.word text) ctx = pure (.ok d)) ∧
        (∀ ctx : Context ℚ, ctx.tooDeep = false →
          resolveColor (Node.ofText text) ctx = pure (.ok d)) ∧
        d.space = .rgb ∧ t.Near (1 / 510) d.channels ∧ |d.alpha - c.alpha| ≤ 1 / 510 := by
  refine ⟨fun cs hcs => ?_, fun c hchannels h0 h1 => Color.exists_reread_hex hchannels h0 h1⟩
  obtain ⟨c, hcolor, htext⟩ := Hex.exists_color?_toCss hcs
  have hresolve : ∀ ctx, Component.resolveHex (.word (Hex.text cs)) ctx = pure (.ok c) :=
    Component.resolveHex_of_color? rfl hcolor
  refine ⟨c, hresolve, fun ctx hdeep => ?_, htext⟩
  have hhead : (Hex.text cs).toList.head? = some '#' := by rw [Hex.text, String.toList_ofList]; rfl
  rw [resolveColor_word_of_head hhead hdeep]
  exact hresolve ctx

end

/-- `#9AcF` covers fully, so no alpha is written.  A channel of one half lies between two bytes and
goes up, which is the most that a channel can move. -/
theorem Color.hex_roundTrips_halves :
    letI : LightCurve ℚ := ⟨id⟩
    let c : Color ℚ := .ofChannels .rgb ⟨1 / 2, 1 / 3, 1⟩ (1 / 2)
    Hex.Digits ['9', 'A', 'c', 'F'] ∧
      (∃ d : Color ℚ, (∀ ctx, Component.resolveHex (.word "#9AcF") ctx = pure (.ok d)) ∧
        d.toCss .hex = .ok "#99aacc") ∧
      (c.space = .rgb → c.channels.InUnit) ∧ 0 ≤ c.alpha ∧ c.alpha ≤ 1 ∧
      c.toCss .hex = .ok "#8055ff80" ∧
      ∃ d : Color ℚ, (∀ ctx, Component.resolveHex (.word "#8055ff80") ctx = pure (.ok d)) ∧
        c.channels.Near (1 / 510) d.channels ∧ |d.alpha - c.alpha| ≤ 1 / 510 := by
  let : LightCurve ℚ := ⟨id⟩
  intro c
  obtain ⟨hread, hwritten⟩ := Color.hex_roundTrips
  have hdigits : Hex.Digits ['9', 'A', 'c', 'F'] := by decide
  have htext : Hex.text ['9', 'A', 'c', 'F'] = "#9AcF" := by decide
  have hshown : Hex.text (Hex.shownForm ['9', 'A', 'c', 'F']) = "#99aacc" := by decide
  have hchannels : c.space = .rgb → c.channels.InUnit := fun _ => by
    constructor <;> norm_num [c, Color.ofChannels]
  have h0 : 0 ≤ c.alpha := by norm_num [c, Color.ofChannels]
  have h1 : c.alpha ≤ 1 := by norm_num [c, Color.ofChannels]
  have hprinted : c.toCss .hex = .ok "#8055ff80" := by decide +kernel
  obtain ⟨d, hd, -, hcss⟩ := hread _ hdigits
  obtain ⟨t, text, e, ht, htext', he, -, -, hnear, halpha⟩ := hwritten c hchannels h0 h1
  cases ht
  cases htext'.symm.trans hprinted
  exact ⟨hdigits, ⟨d, htext ▸ hd, hcss.trans (congrArg Except.ok hshown)⟩, hchannels, h0, h1,
    hprinted, e, he, hnear, halpha⟩

end ColorMod
