import Mathlib
import ColorMod.Decimal.Fixed
import ColorMod.Decimal.Numeral

/-!
# Printed numbers read back

A number that is printed with a fixed number of places is rounded to a multiple of the last place,
and its text is read as that multiple exactly.

* `roundEven_eq_of_abs_sub_lt`, `roundEven_lt_iff`, `roundPlaces_eq_or_le`: what a number is rounded
  to.
* `exists_unitsText`: digits, and perhaps a point with more digits, that spell the units.
* `exists_parse?_fixedText`, `parse?_toString`: the numeral that the text of a number is read as.
* `fixedText_eq_iff`, `fixedText_eq_of_near`: when two numbers have the same text.
-/

namespace ColorMod

namespace Decimal

/-! ## Rounding -/

theorem abs_roundEven_sub_le (q : ℚ) : |roundEven q - q| ≤ 1 / 2 := by
  have h0 : ((q.floor : ℤ) : ℚ) ≤ q := Int.floor_le q
  have h1 : q < (q.floor : ℤ) + 1 := Int.lt_floor_add_one q
  unfold roundEven
  dsimp only
  rw [abs_le]
  split_ifs <;> push_cast <;> constructor <;> linarith

/-- A number is rounded to the integer that it is less than a half away from. -/
theorem roundEven_eq_of_abs_sub_lt {q : ℚ} {k : ℤ} (h : |q - k| < 1 / 2) : roundEven q = k := by
  have hround := abs_roundEven_sub_le q
  have hlt : |((roundEven q - k : ℤ) : ℚ)| < 1 := by
    push_cast
    calc |(roundEven q : ℚ) - k| = |(roundEven q - q) + (q - k)| := by ring_nf
      _ ≤ |(roundEven q : ℚ) - q| + |q - k| := abs_add_le _ _
      _ < 1 := by linarith
  rw [← Int.cast_abs, ← Int.cast_one, Int.cast_lt, Int.abs_lt_one_iff] at hlt
  omega

/-- Less than an even number is what lies more than a half below it. -/
theorem roundEven_lt_iff {q : ℚ} {n : ℤ} (hn : n % 2 = 0) : roundEven q < n ↔ q < n - 1 / 2 := by
  have h0 : ((q.floor : ℤ) : ℚ) ≤ q := Int.floor_le q
  have h1 : q < (q.floor : ℤ) + 1 := Int.lt_floor_add_one q
  have hcases : (q.floor : ℤ) ≤ n - 2 ∨ q.floor = n - 1 ∨ n ≤ (q.floor : ℤ) := by omega
  rw [roundEven]
  rcases hcases with hbelow | hlast | habove
  · have hcast : ((q.floor : ℤ) : ℚ) ≤ n - 2 := by exact_mod_cast hbelow
    refine iff_of_true ?_ (by linarith)
    split_ifs <;> omega
  · have hcast : ((q.floor : ℤ) : ℚ) = n - 1 := by exact_mod_cast hlast
    split_ifs with hlow hhigh heven
    · exact iff_of_true (by omega) (by linarith)
    · exact iff_of_false (by omega) (by linarith)
    · omega
    · exact iff_of_false (by omega) (by linarith)
  · have hcast : (n : ℚ) ≤ (q.floor : ℤ) := by exact_mod_cast habove
    refine iff_of_false ?_ (by linarith)
    split_ifs <;> omega

theorem roundEven_le {q : ℚ} {n : ℤ} (h : q ≤ n) : roundEven q ≤ n := by
  have hround := (abs_le.mp (abs_roundEven_sub_le q)).2
  have hlt : (roundEven q : ℚ) < (n + 1 : ℤ) := by
    push_cast
    linarith
  have := Int.cast_lt.mp hlt
  omega

theorem le_roundEven {q : ℚ} {n : ℤ} (h : n ≤ q) : n ≤ roundEven q := by
  have hround := (abs_le.mp (abs_roundEven_sub_le q)).1
  have hlt : ((n - 1 : ℤ) : ℚ) < roundEven q := by
    push_cast
    linarith
  have := Int.cast_lt.mp hlt
  omega

theorem roundEven_nonneg {q : ℚ} (h : 0 ≤ q) : 0 ≤ roundEven q :=
  le_roundEven (by rwa [Int.cast_zero])

theorem abs_roundPlaces_sub_le (places : ℕ) (q : ℚ) :
    |roundPlaces places q - q| ≤ 1 / 2 / 10 ^ places := by
  have hpos : (0 : ℚ) < 10 ^ places := by positivity
  have hround := abs_roundEven_sub_le (q * Nat.pow 10 places)
  have heq : (roundPlaces places q - q) * 10 ^ places =
      roundEven (q * Nat.pow 10 places) - q * Nat.pow 10 places := by
    rw [roundPlaces, scaled, Nat.pow_eq, Nat.cast_pow, Nat.cast_ofNat]
    field_simp
  rw [le_div_iff₀ hpos]
  calc |roundPlaces places q - q| * 10 ^ places
      = |(roundPlaces places q - q) * 10 ^ places| := by rw [abs_mul, abs_of_pos hpos]
    _ ≤ 1 / 2 := by rw [heq]; exact hround

theorem scaled_nonneg {q : ℚ} (places : ℕ) (h : 0 ≤ q) : 0 ≤ scaled places q :=
  roundEven_nonneg (mul_nonneg h (Nat.cast_nonneg _))

/-- A number is printed as any number that is near enough to what it is rounded to. -/
theorem fixedText_eq_of_near {places : ℕ} {q r : ℚ}
    (h : |r - roundPlaces places q| < 1 / 2 / 10 ^ places) :
    fixedText places r = fixedText places q := by
  have hpos : (0 : ℚ) < 10 ^ places := by positivity
  have hunits : scaled places r = scaled places q := by
    refine roundEven_eq_of_abs_sub_lt ?_
    have heq : r * Nat.pow 10 places - scaled places q =
        (r - roundPlaces places q) * 10 ^ places := by
      rw [roundPlaces, Nat.pow_eq, Nat.cast_pow, Nat.cast_ofNat]
      field_simp
    rw [heq, abs_mul, abs_of_pos hpos]
    exact (lt_div_iff₀ hpos).mp h
  rw [fixedText, fixedText, hunits]

/-- A number that is not past the middle after a whole number is rounded to that whole number, or to
at least one unit of the last place less. -/
theorem roundPlaces_eq_or_le {q : ℚ} {places n : ℕ} (h : q < n + 1 / 2 / 10 ^ places) :
    roundPlaces places q = n ∨ roundPlaces places q ≤ n - 1 / 10 ^ places := by
  have hpos : (0 : ℚ) < 10 ^ places := by positivity
  have hround := (abs_le.mp (abs_roundPlaces_sub_le places q)).2
  have hvalue : roundPlaces places q = scaled places q / 10 ^ places := by
    rw [roundPlaces, Nat.pow_eq, Nat.cast_pow, Nat.cast_ofNat]
  have hunits : scaled places q < n * 10 ^ places + 1 := by
    have hlt : (scaled places q : ℚ) / 10 ^ places < n + 1 / 10 ^ places := by
      have hhalves : (1 : ℚ) / 2 / 10 ^ places + 1 / 2 / 10 ^ places = 1 / 10 ^ places := by ring
      linarith
    rw [div_lt_iff₀ hpos, add_mul, div_mul_cancel₀ _ hpos.ne'] at hlt
    exact_mod_cast hlt
  rw [hvalue]
  rcases (Int.lt_add_one_iff.mp hunits).lt_or_eq with hlt | heq
  · refine .inr ((div_le_iff₀ hpos).mpr ?_)
    rw [sub_mul, div_mul_cancel₀ _ hpos.ne']
    have hle := Int.le_sub_one_of_lt hlt
    exact_mod_cast hle
  · refine .inl ((div_eq_iff hpos.ne').mpr ?_)
    exact_mod_cast heq

theorem roundPlaces_natCast (places n : ℕ) : roundPlaces places n = n := by
  have hpos : (0 : ℚ) < 10 ^ places := by positivity
  have hunits : scaled places n = (n * 10 ^ places : ℕ) := by
    refine roundEven_eq_of_abs_sub_lt ?_
    rw [Nat.pow_eq, ← Nat.cast_mul, Int.cast_natCast, sub_self, abs_zero]
    norm_num
  rw [roundPlaces, hunits, Nat.pow_eq, Int.cast_natCast, Nat.cast_mul, Nat.cast_pow, Nat.cast_ofNat]
  exact mul_div_cancel_right₀ _ hpos.ne'

theorem roundPlaces_nonneg {q : ℚ} (places : ℕ) (h : 0 ≤ q) : 0 ≤ roundPlaces places q :=
  div_nonneg (Int.cast_nonneg (scaled_nonneg places h)) (Nat.cast_nonneg _)

/-! ## Digits -/

section

variable {cs ds : List Char}

theorem exists_dropZeros (ds : List Char) : ∃ j, ds = dropZeros ds ++ List.replicate j '0' := by
  refine ⟨(ds.reverse.takeWhile (· == '0')).length, ?_⟩
  have hzeros : ds.reverse.takeWhile (· == '0') =
      List.replicate (ds.reverse.takeWhile (· == '0')).length '0' :=
    List.eq_replicate_iff.mpr ⟨rfl, fun c hc => by simpa using List.mem_takeWhile_imp hc⟩
  rw [← List.reverse_replicate, ← hzeros, dropZeros, ← List.reverse_append,
    List.takeWhile_append_dropWhile, List.reverse_reverse]

variable {count n : ℕ}

theorem lowDigits_eq (hcount : 0 < count) (h : n < 10 ^ count) :
    lowDigits count n = List.replicate (count - (digits n).length) '0' ++ digits n := by
  have hlength : (digits n).length ≤ count := (Nat.length_toDigits_le_iff (by decide) hcount).mpr h
  rw [lowDigits, Nat.sub_eq_zero_of_le hlength, List.drop_zero]

theorem length_lowDigits (hcount : 0 < count) (h : n < 10 ^ count) :
    (lowDigits count n).length = count := by
  have hlength : (digits n).length ≤ count := (Nat.length_toDigits_le_iff (by decide) hcount).mpr h
  rw [lowDigits_eq hcount h, List.length_append, List.length_replicate]
  omega

theorem ofDigitChars_digits (n : ℕ) : Nat.ofDigitChars 10 (digits n) 0 = n :=
  Nat.ofDigitChars_toDigits (by decide) (by decide)

theorem ofDigitChars_lowDigits (hcount : 0 < count) (h : n < 10 ^ count) :
    Nat.ofDigitChars 10 (lowDigits count n) 0 = n := by
  rw [lowDigits_eq hcount h, Nat.ofDigitChars_append, Nat.ofDigitChars_replicate_zero, mul_zero,
    ofDigitChars_digits]

theorem isDigit_of_mem_digits {c : Char} (h : c ∈ digits n) : c.isDigit :=
  Nat.isDigit_of_mem_toDigits (by decide) (by decide) h

theorem isDigit_of_mem_lowDigits {c : Char} (hcount : 0 < count) (hn : n < 10 ^ count)
    (h : c ∈ lowDigits count n) : c.isDigit := by
  rw [lowDigits_eq hcount hn, List.mem_append] at h
  rcases h with h | h
  · rw [List.eq_of_mem_replicate h]
    rfl
  · exact isDigit_of_mem_digits h

/-- Digits that are read after others count on from those. -/
theorem ofDigitChars_init (ds : List Char) (init : ℕ) :
    Nat.ofDigitChars 10 ds init = 10 ^ ds.length * init + Nat.ofDigitChars 10 ds 0 := by
  induction ds generalizing init with
  | nil => simp [Nat.ofDigitChars]
  | cons c cs ih =>
    rw [Nat.ofDigitChars_cons, Nat.ofDigitChars_cons, ih, ih (10 * 0 + _), List.length_cons]
    ring

/-- The text of a number of units has a whole part, and a point with at most the given number of
digits if there is a fraction. -/
theorem exists_unitsText {places : ℕ} (hplaces : 0 < places) (units : ℕ) : ∃ whole part j,
    unitsText places units = whole ++ (if part.isEmpty then [] else '.' :: part) ∧
    whole ≠ [] ∧ (∀ c ∈ whole ++ part, c.isDigit) ∧ part.length + j = places ∧
    Nat.ofDigitChars 10 (whole ++ part) 0 * 10 ^ j = units := by
  let rest := units % Nat.pow 10 places
  have hrest : rest < 10 ^ places := Nat.mod_lt _ (Nat.pow_pos (by decide))
  obtain ⟨j, hj⟩ := exists_dropZeros (lowDigits places rest)
  have hlength : (dropZeros (lowDigits places rest)).length + j = places := by
    have h := congrArg List.length hj
    rw [length_lowDigits hplaces hrest, List.length_append, List.length_replicate] at h
    exact h.symm
  have hvalue : Nat.ofDigitChars 10 (dropZeros (lowDigits places rest)) 0 * 10 ^ j = rest := by
    have h := ofDigitChars_lowDigits hplaces hrest
    rw [hj, Nat.ofDigitChars_append, Nat.ofDigitChars_replicate_zero] at h
    rw [mul_comm, h]
  refine ⟨_, _, j, rfl, Nat.toDigits_ne_nil, fun c hc => ?_, hlength, ?_⟩
  · rcases List.mem_append.mp hc with hc | hc
    · exact isDigit_of_mem_digits hc
    · exact isDigit_of_mem_lowDigits hplaces hrest (hj ▸ List.mem_append_left _ hc)
  · rw [Nat.ofDigitChars_append, ofDigitChars_digits, ofDigitChars_init, add_mul, hvalue,
      mul_right_comm, ← pow_add, hlength]
    exact Nat.div_add_mod units _

end

end Decimal

/-! ## Reading -/

namespace Numeral

open Text

/-- The characters of a numeral without a sign and without an exponent. -/
def IsPlain (c : Char) : Prop :=
  c.isDigit ∨ c = '.'

section

variable {c : Char}

theorem exists_digit_eq (h : c.isDigit) : ∃ d < 10, c = Char.ofNat (48 + d) := by
  obtain ⟨h0, h9⟩ := Char.isDigit_iff_toNat.mp h
  change 48 ≤ c.toNat at h0
  change c.toNat ≤ 57 at h9
  refine ⟨c.toNat - 48, by omega, ?_⟩
  rw [Nat.add_sub_cancel' h0, Char.ofNat_toNat]

theorem digitValue?_of_isDigit (h : c.isDigit) : digitValue? c = some (c.toNat - '0'.toNat) := by
  have hall : ∀ d < 10, digitValue? (Char.ofNat (48 + d)) =
      some ((Char.ofNat (48 + d)).toNat - '0'.toNat) := by decide
  obtain ⟨d, hd, rfl⟩ := exists_digit_eq h
  exact hall d hd

theorem IsPlain.isPadding_eq (h : IsPlain c) : isPadding c = false := by
  have hall : ∀ d < 10, isPadding (Char.ofNat (48 + d)) = false := by decide
  rcases h with h | rfl
  · obtain ⟨d, hd, rfl⟩ := exists_digit_eq h
    exact hall d hd
  · decide

theorem IsPlain.ne_underscore (h : IsPlain c) : c ≠ '_' := by
  rintro rfl
  rcases h with h | h <;> exact absurd h (by decide)

end

section

variable {cs ds : List Char}

theorem trimChars_of_forall {p : Char → Bool} (h : ∀ c ∈ cs, p c = false) : trimChars p cs = cs := by
  have hdrop : ∀ ds : List Char, (∀ c ∈ ds, p c = false) → ds.dropWhile p = ds := by
    intro ds hds
    cases ds with
    | nil => rfl
    | cons c ds => exact List.dropWhile_cons_of_neg (by rw [hds c List.mem_cons_self]; decide)
  rw [trimChars, hdrop cs h, hdrop, List.reverse_reverse]
  exact fun c hc => h c (List.mem_reverse.mp hc)

theorem dropSeparators_of_forall (h : ∀ c ∈ cs, c ≠ '_') (afterDigit : Bool) :
    dropSeparators afterDigit cs = some cs := by
  induction cs generalizing afterDigit with
  | nil => rfl
  | cons c cs ih =>
    have hcs := ih fun d hd => h d (List.mem_cons_of_mem _ hd)
    rw [dropSeparators]
    · rw [hcs]
      rfl
    · exact fun hc => h c List.mem_cons_self hc

/-- Digits are taken up to the first character that is none. -/
theorem takeDigits_append (h : ∀ c ∈ ds, c.isDigit)
    (hcs : ∀ c ∈ cs.head?, digitValue? c = none) :
    takeDigits (ds ++ cs) = (ds.map fun c => c.toNat - '0'.toNat, cs) := by
  induction ds with
  | nil =>
    cases cs with
    | nil => rfl
    | cons c cs =>
      rw [List.nil_append, takeDigits, hcs c rfl]
      rfl
  | cons d ds ih =>
    rw [List.cons_append, takeDigits, digitValue?_of_isDigit (h d List.mem_cons_self),
      ih fun c hc => h c (List.mem_cons_of_mem _ hc)]
    rfl

theorem ofDigits_map (ds : List Char) :
    ofDigits (ds.map fun c => c.toNat - '0'.toNat) = Nat.ofDigitChars 10 ds 0 := by
  rw [ofDigits, List.foldl_map, Nat.ofDigitChars_eq_foldl]

theorem takeSign_of_isDigit {c : Char} (h : c.isDigit) : takeSign (c :: cs) = (false, c :: cs) := by
  unfold takeSign
  split
  · next heq =>
    cases heq
    exact absurd h (by decide)
  · next heq =>
    cases heq
    exact absurd h (by decide)
  · rfl

/-- A whole part with digits, and perhaps a point with more digits. -/
theorem readUnsigned_append {whole part : List Char} (hwhole : whole ≠ [])
    (hdigits : ∀ c ∈ whole ++ part, c.isDigit) (negative : Bool) :
    readUnsigned negative (whole ++ if part.isEmpty then [] else '.' :: part) =
      some ⟨negative, Nat.ofDigitChars 10 (whole ++ part) 0, -part.length⟩ := by
  have hw : ∀ c ∈ whole, c.isDigit := fun c hc => hdigits c (List.mem_append_left _ hc)
  have hp : ∀ c ∈ part, c.isDigit := fun c hc => hdigits c (List.mem_append_right _ hc)
  have hpart : takeDigits part = (part.map fun c => c.toNat - '0'.toNat, []) := by
    have hall := @takeDigits_append [] part hp (by simp)
    rwa [List.append_nil] at hall
  obtain ⟨w, ws, rfl⟩ := List.exists_cons_of_ne_nil hwhole
  cases part with
  | nil =>
    rw [readUnsigned, takeDigits_append hw (by simp), ← ofDigits_map, List.append_nil]
    simp [readExponent]
  | cons p ps =>
    have hdot : digitValue? '.' = none := by decide
    rw [readUnsigned, takeDigits_append hw (by simpa using hdot), ← ofDigits_map, List.map_append]
    simp only [List.isEmpty_cons, Bool.false_eq_true, if_false, hpart]
    simp [readExponent]

end

open Decimal

theorem isPlain_of_mem_append {whole part : List Char}
    (hdigits : ∀ c ∈ whole ++ part, c.isDigit) :
    ∀ c ∈ whole ++ (if part.isEmpty then [] else '.' :: part), IsPlain c := by
  intro c hc
  split at hc
  · exact .inl (hdigits c (List.mem_append_left _ (by simpa using hc)))
  · rcases List.mem_append.mp hc with hc | hc
    · exact .inl (hdigits c (List.mem_append_left _ hc))
    · rcases List.mem_cons.mp hc with rfl | hc
      · exact .inr rfl
      · exact .inl (hdigits c (List.mem_append_right _ hc))

/-- The text of units starts with a digit and has nothing but digits and a point. -/
theorem exists_unitsText_eq_cons {places : ℕ} (hplaces : 0 < places) (units : ℕ) :
    ∃ c cs, unitsText places units = c :: cs ∧ c.isDigit ∧ ∀ d ∈ c :: cs, IsPlain d := by
  obtain ⟨whole, part, j, htext, hwhole, hdigits, -⟩ := exists_unitsText hplaces units
  have hplain := isPlain_of_mem_append hdigits
  obtain ⟨c, cs, rfl⟩ := List.exists_cons_of_ne_nil hwhole
  exact ⟨c, _, htext, hdigits c (by simp), hplain⟩

theorem toList_fixedText {q : ℚ} (hq : 0 ≤ q) (places : ℕ) :
    (fixedText places q).toList = unitsText places (scaled places q).natAbs := by
  rw [fixedText, String.toList_ofList, if_neg (not_lt.mpr (scaled_nonneg places hq)),
    List.nil_append]

/-- A numeral without a sign, blanks and separators. -/
theorem parse?_of_isPlain {s : String} {c : Char} {cs : List Char} (hs : s.toList = c :: cs)
    (hc : c.isDigit) (hplain : ∀ d ∈ c :: cs, IsPlain d) :
    parse? s = readUnsigned false (c :: cs) := by
  rw [parse?, hs, trimChars_of_forall fun d hd => (hplain d hd).isPadding_eq,
    dropSeparators_of_forall fun d hd => (hplain d hd).ne_underscore]
  change readUnsigned (takeSign (c :: cs)).1 (takeSign (c :: cs)).2 = _
  rw [takeSign_of_isDigit hc]

/-- The text of a number is read as the multiple of the last place that the number is rounded to. -/
theorem exists_parse?_fixedText {q : ℚ} (hq : 0 ≤ q) : ∃ (coefficient places : ℕ),
    parse? (fixedText 10 q) = some ⟨false, coefficient, -places⟩ ∧ places ≤ 10 ∧
    (coefficient : ℚ) * 10 ^ (-places : ℤ) = roundPlaces 10 q := by
  obtain ⟨whole, part, j, htext, hwhole, hdigits, hlength, hvalue⟩ :=
    exists_unitsText (by decide : 0 < 10) (scaled 10 q).natAbs
  refine ⟨Nat.ofDigitChars 10 (whole ++ part) 0, part.length, ?_, by omega, ?_⟩
  · have hread := readUnsigned_append hwhole hdigits false
    have hplain := isPlain_of_mem_append hdigits
    have hlist := (toList_fixedText hq 10).trans htext
    obtain ⟨c, cs, rfl⟩ := List.exists_cons_of_ne_nil hwhole
    rw [parse?_of_isPlain hlist (hdigits c (by simp)) hplain]
    exact hread
  · have hcast : (Nat.ofDigitChars 10 (whole ++ part) 0 : ℚ) * 10 ^ j = scaled 10 q := by
      have h : ((Nat.ofDigitChars 10 (whole ++ part) 0 * 10 ^ j : ℕ) : ℤ) = scaled 10 q := by
        rw [hvalue, Int.natAbs_of_nonneg (scaled_nonneg 10 hq)]
      exact_mod_cast congrArg (Int.cast : ℤ → ℚ) h
    have hpow : (10 : ℚ) ^ part.length * 10 ^ j = 10 ^ 10 := by rw [← pow_add, hlength]
    rw [roundPlaces, ← hcast, zpow_neg, zpow_natCast, Nat.pow_eq, Nat.cast_pow, Nat.cast_ofNat,
      ← hpow]
    field_simp

/-- Numbers have the same text just when they are rounded to the same number. -/
theorem fixedText_eq_iff {q r : ℚ} (hq : 0 ≤ q) (hr : 0 ≤ r) :
    fixedText 10 q = fixedText 10 r ↔ roundPlaces 10 q = roundPlaces 10 r := by
  constructor
  · intro h
    obtain ⟨m, i, hm, -, hvalue⟩ := exists_parse?_fixedText hq
    obtain ⟨n, j, hn, -, hvalue'⟩ := exists_parse?_fixedText hr
    rw [h, hn] at hm
    obtain ⟨-, hcoefficient, hexponent⟩ := Numeral.mk.inj (Option.some.inj hm)
    rw [← hvalue, ← hvalue', hcoefficient, hexponent]
  · intro h
    have hunits : scaled 10 q = scaled 10 r := by
      rw [roundPlaces, roundPlaces, div_left_inj' (by decide +kernel)] at h
      exact Int.cast_injective h
    rw [fixedText, fixedText, hunits]

/-- The digits of a whole number are read as that number. -/
theorem parse?_toString (n : ℕ) : parse? (toString n) = some ⟨false, n, 0⟩ := by
  have hlist : (toString n).toList = digits n := Nat.toList_repr
  have hdigits : ∀ c ∈ digits n, c.isDigit := fun c => isDigit_of_mem_digits
  obtain ⟨c, cs, hcons⟩ := List.exists_cons_of_ne_nil (l := digits n) Nat.toDigits_ne_nil
  rw [hcons] at hlist hdigits
  rw [parse?_of_isPlain hlist (hdigits c List.mem_cons_self) fun d hd => .inl (hdigits d hd)]
  have hread := @readUnsigned_append (c :: cs) [] (List.cons_ne_nil c cs) (by simpa using hdigits)
    false
  rw [List.append_nil, ← hcons, ofDigitChars_digits, hcons] at hread
  simpa using hread

end Numeral

end ColorMod
