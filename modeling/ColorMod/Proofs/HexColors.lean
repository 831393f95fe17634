import Mathlib.Data.List.Basic
import ColorMod.Grammar
import ColorMod.Scalar.Binary64
import ColorMod.Proofs.Runs

/-!
# The grammar of hex colors

A hex color is `#` and 3, 4, 6 or 8 digits of base sixteen (`Hex.IsColor`).  A word is resolved to a
color when it is one, and also when it is one with a line break after it.

* `Hex.mapM_hexValue?_of_mem`: the values of characters that are digits.
* `Hex.isSome_bytes?_iff`: which texts have bytes.
* `Component.resolveHex_accepts_iff`: which words are colors; what they accept beyond the hex colors
  is a line break and nothing else.
-/

namespace ColorMod

namespace Hex

open Text

/-! ## Digits -/

/-- The digits of base sixteen, with letters of either case. -/
def digits : List Char :=
  ['0', '1', '2', '3', '4', '5', '6', '7', '8', '9', 'a', 'b', 'c', 'd', 'e', 'f',
   'A', 'B', 'C', 'D', 'E', 'F']

/-- As many digits as a color has. -/
structure Digits (cs : List Char) : Prop where
  length : cs.length ∈ [3, 4, 6, 8]
  mem : ∀ c ∈ cs, c ∈ digits

instance (cs : List Char) : Decidable (Digits cs) :=
  decidable_of_iff (cs.length ∈ [3, 4, 6, 8] ∧ cs.all digits.contains)
    ⟨fun h => ⟨h.1, fun c hc => List.contains_iff_mem.mp (List.all_eq_true.mp h.2 c hc)⟩,
      fun h => ⟨h.length, List.all_eq_true.mpr fun c hc => List.contains_iff_mem.mpr (h.mem c hc)⟩⟩

/-- The text is a hex color. -/
def IsColor (text : String) : Prop :=
  ∃ cs, text.toList = '#' :: cs ∧ Digits cs

/-- The text is a hex color and one line break. -/
def IsColorAndBreak (text : String) : Prop :=
  ∃ cs, text.toList = '#' :: cs ++ ['\n'] ∧ Digits cs

/-- What a digit stands for. -/
def value (c : Char) : Nat :=
  (hexValue? c).getD 0

/-- A digit has a value, and that value has a digit of its own in lower case. -/
theorem hexValue?_of_mem {c : Char} (h : c ∈ digits) :
    hexValue? c = some (value c) ∧ value c < 16 ∧ Nat.digitChar (value c) = c.toLower := by
  have hall : digits.all fun c =>
      hexValue? c = some (value c) ∧ value c < 16 ∧ Nat.digitChar (value c) = c.toLower := by
    decide
  exact of_decide_eq_true (List.all_eq_true.mp hall c h)

/-- Every digit is in ASCII. -/
theorem toNat_lt_of_hexValue? {c : Char} {d : Nat} (h : hexValue? c = some d) : c.toNat < 128 := by
  have hle : ∀ e : Char, e.toNat < 128 → c ≤ e → c.toNat < 128 := by
    intro e he hce
    have hnat : c.toNat ≤ e.toNat := UInt32.le_iff_toNat_le.mp (Char.le_def.mp hce)
    omega
  -- Each range of digits has a last one, which is in ASCII.
  unfold hexValue? at h
  split at h
  · next hdigit =>
    have hnine : c ≤ '9' := of_decide_eq_true (Bool.and_eq_true_iff.mp hdigit).2
    exact hle '9' (by decide) hnine
  split at h
  · next hlower =>
    rw [Bool.and_eq_true_iff, decide_eq_true_iff, decide_eq_true_iff] at hlower
    exact hle 'f' (by decide) hlower.2
  split at h
  · next hupper =>
    rw [Bool.and_eq_true_iff, decide_eq_true_iff, decide_eq_true_iff] at hupper
    exact hle 'F' (by decide) hupper.2
  · cases h

theorem mem_digits_of_hexValue? {c : Char} {d : Nat} (h : hexValue? c = some d) : c ∈ digits := by
  have hascii : ∀ n < 128, (hexValue? (Char.ofNat n)).isSome → Char.ofNat n ∈ digits := by
    decide +kernel
  have hc := hascii c.toNat (toNat_lt_of_hexValue? h)
  rw [Char.ofNat_toNat, h] at hc
  exact hc rfl

theorem mapM_hexValue?_of_mem {cs : List Char} (h : ∀ c ∈ cs, c ∈ digits) :
    cs.mapM hexValue? = some (cs.map value) := by
  induction cs with
  | nil => rfl
  | cons c cs ih =>
    obtain ⟨hc, hcs⟩ := List.forall_mem_cons.mp h
    rw [List.mapM_cons, (hexValue?_of_mem hc).1, ih hcs]
    rfl

theorem mem_digits_of_mapM {cs : List Char} {ds : List Nat} (h : cs.mapM hexValue? = some ds) :
    ∀ c ∈ cs, c ∈ digits := by
  induction cs generalizing ds with
  | nil => simp
  | cons c cs ih =>
    rw [List.mapM_cons, Option.bind_eq_bind, Option.bind_eq_some_iff] at h
    obtain ⟨d, hd, h⟩ := h
    obtain ⟨ds, hds, -⟩ := Option.bind_eq_some_iff.mp h
    exact List.forall_mem_cons.mpr ⟨mem_digits_of_hexValue? hd, ih hds⟩

/-! ## Bytes -/

/-- The bytes that the values of the digits make up. -/
def bytesOf? : List Nat → Option (Triple Nat × Option Nat)
  | [r, g, b] => some (⟨17 * r, 17 * g, 17 * b⟩, none)
  | [r, g, b, a] => some (⟨17 * r, 17 * g, 17 * b⟩, some (17 * a))
  | [r, r', g, g', b, b'] => some (⟨16 * r + r', 16 * g + g', 16 * b + b'⟩, none)
  | [r, r', g, g', b, b', a, a'] =>
    some (⟨16 * r + r', 16 * g + g', 16 * b + b'⟩, some (16 * a + a'))
  | _ => none

theorem isSome_bytesOf?_iff (ds : List Nat) : (bytesOf? ds).isSome ↔ ds.length ∈ [3, 4, 6, 8] := by
  rcases ds with _ | ⟨_, _ | ⟨_, _ | ⟨_, _ | ⟨_, _ | ⟨_, _ | ⟨_, _ | ⟨_, _ | ⟨_, _ | _⟩⟩⟩⟩⟩⟩⟩⟩ <;>
    simp [bytesOf?]

theorem bytes?_of_toList {text : String} {cs : List Char} (h : text.toList = '#' :: cs) :
    bytes? text = ((dropLineBreak cs).mapM hexValue?).bind bytesOf? := by
  rw [bytes?, h]
  rfl

theorem exists_of_isSome_bytes? {text : String} (h : (bytes? text).isSome) :
    ∃ cs, text.toList = '#' :: cs := by
  unfold bytes? at h
  split at h
  · next cs heq => exact ⟨cs, heq⟩
  · cases h

/-! ## Texts -/

theorem digits_dropLineBreak_iff {cs : List Char} :
    Digits (dropLineBreak cs) ↔ Digits cs ∨ ∃ ds, cs = ds ++ ['\n'] ∧ Digits ds := by
  unfold dropLineBreak
  split
  · next hbreak =>
    obtain ⟨ds, rfl⟩ := List.getLast?_eq_some_iff.mp (beq_iff_eq.mp hbreak)
    rw [List.dropLast_concat]
    refine ⟨fun h => .inr ⟨ds, rfl, h⟩, ?_⟩
    rintro (h | ⟨ds', heq, h⟩)
    · exact absurd (h.mem '\n' (by simp)) (by decide)
    · rwa [List.append_cancel_right heq]
  · next hbreak =>
    refine ⟨.inl, ?_⟩
    rintro (h | ⟨ds, rfl, -⟩)
    · exact h
    · simp at hbreak

/-- A text has bytes when it is `#` and digits, but for a line break. -/
theorem isSome_bytes?_iff {text : String} :
    (bytes? text).isSome ↔ ∃ cs, text.toList = '#' :: cs ∧ Digits (dropLineBreak cs) := by
  constructor
  · intro h
    obtain ⟨cs, htext⟩ := exists_of_isSome_bytes? h
    rw [bytes?_of_toList htext] at h
    cases hds : (dropLineBreak cs).mapM hexValue? with
    | none => rw [hds] at h; cases h
    | some ds =>
      have hmem := mem_digits_of_mapM hds
      rw [mapM_hexValue?_of_mem hmem, Option.bind_some, isSome_bytesOf?_iff, List.length_map] at h
      exact ⟨cs, htext, h, hmem⟩
  · rintro ⟨cs, htext, hlength, hmem⟩
    rw [bytes?_of_toList htext, mapM_hexValue?_of_mem hmem, Option.bind_some, isSome_bytesOf?_iff,
      List.length_map]
    exact hlength

theorem isSome_bytes?_iff_isColor {text : String} :
    (bytes? text).isSome ↔ IsColor text ∨ IsColorAndBreak text := by
  rw [isSome_bytes?_iff]
  constructor
  · rintro ⟨cs, htext, hcs⟩
    rcases digits_dropLineBreak_iff.mp hcs with hcs | ⟨ds, rfl, hds⟩
    · exact .inl ⟨cs, htext, hcs⟩
    · exact .inr ⟨ds, htext, hds⟩
  · rintro (⟨cs, htext, hcs⟩ | ⟨ds, htext, hds⟩)
    · exact ⟨cs, htext, digits_dropLineBreak_iff.mpr (.inl hcs)⟩
    · exact ⟨_, htext, digits_dropLineBreak_iff.mpr (.inr ⟨ds, rfl, hds⟩)⟩

/-- No hex color ends in a line break. -/
theorem not_isColor_of_break {text : String} (h : IsColorAndBreak text) : ¬IsColor text := by
  rintro ⟨cs, htext, hcs⟩
  obtain ⟨ds, htext', -⟩ := h
  obtain rfl : cs = ds ++ ['\n'] := (List.cons.inj (htext.symm.trans htext')).2
  exact absurd (hcs.mem '\n' (by simp)) (by decide)

end Hex

/-! ## Words -/

namespace Component

open Hex

variable {α : Type} [Scalar α] {n : Node}

theorem isSome_color?_iff {text : String} :
    (Hex.color? text : Option (Color α)).isSome ↔ IsColor text ∨ IsColorAndBreak text := by
  rw [Hex.color?, Option.isSome_map, isSome_bytes?_iff_isColor]

theorem resolveHex_of_color? (hkind : n.kind = .word) {c : Color α}
    (h : Hex.color? n.value = some c) (ctx : Context α) : resolveHex n ctx = pure (.ok c) := by
  rw [resolveHex, if_pos hkind, h]

theorem resolveHex_of_color?_none (hkind : n.kind = .word)
    (h : (Hex.color? n.value : Option (Color α)) = none) (ctx : Context α) :
    resolveHex n ctx = ctx.reject n n.value .hexColor := by
  rw [resolveHex, if_pos hkind, h]

theorem exists_outcome_resolveHex_iff (hkind : n.kind = .word) (ctx : Context α) :
    (∃ c, (resolveHex n ctx).outcome = .ok (.ok c)) ↔
      IsColor n.value ∨ IsColorAndBreak n.value := by
  rw [← isSome_color?_iff (α := α)]
  cases h : (Hex.color? n.value : Option (Color α)) with
  | some c =>
    rw [resolveHex_of_color? hkind h]
    exact iff_of_true ⟨c, rfl⟩ rfl
  | none =>
    rw [resolveHex_of_color?_none hkind h]
    refine iff_of_false ?_ nofun
    rintro ⟨c, hc⟩
    exact ctx.reject_ne_ok _ _ _ c hc

/-- A word resolves to a color when its text is a hex color or a hex color and one line break, and
any other word is refused.  So the words with the line break are just those that are taken without
being hex colors. -/
theorem resolveHex_accepts_iff (hkind : n.kind = .word) (ctx : Context α) :
    ((∃ c, (resolveHex n ctx).outcome = .ok (.ok c)) ↔
      IsColor n.value ∨ IsColorAndBreak n.value) ∧
    (¬(IsColor n.value ∨ IsColorAndBreak n.value) →
      resolveHex n ctx = ctx.reject n n.value .hexColor ∧
        Complaint.hexColor.message = "Expected a valid hex color") ∧
    (((∃ c, (resolveHex n ctx).outcome = .ok (.ok c)) ↔ IsColor n.value) ↔
      ¬IsColorAndBreak n.value) := by
  have haccepts := exists_outcome_resolveHex_iff hkind ctx
  refine ⟨haccepts, fun h => ⟨?_, rfl⟩, ?_⟩
  · rw [← isSome_color?_iff (α := α), Option.not_isSome_iff_eq_none] at h
    exact resolveHex_of_color?_none hkind h ctx
  · rw [haccepts]
    constructor
    · intro h hbreak
      exact not_isColor_of_break hbreak (h.mp (.inr hbreak))
    · exact or_iff_left

/-- `#fff` and a line break is taken for a color, which it is not. -/
theorem resolveHex_accepts_lineBreak :
    let n : Node := .word "#fff\n"
    n.kind = .word ∧ ¬IsColor n.value ∧ ∀ ctx : Context Float,
      ∃ c, (resolveHex n ctx).outcome = .ok (.ok c) := by
  intro n
  have hbreak : IsColorAndBreak n.value := ⟨['f', 'f', 'f'], by decide +kernel, by decide +kernel⟩
  refine ⟨rfl, not_isColor_of_break hbreak, fun ctx => ?_⟩
  obtain ⟨haccepts, -, -⟩ := resolveHex_accepts_iff (n := n) rfl ctx
  exact haccepts.mpr (.inr hbreak)

end Component

end ColorMod
