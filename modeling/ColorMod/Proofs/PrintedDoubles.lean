import ColorMod.Proofs.DoubleChannels

/-!
# Doubles printed and read back

A double that is printed with ten places, read and printed again has the same text: what is lost on
the way is far less than a unit of the last place.  Only a hue that is shown as a full turn is
printed as zero the second time, and only an alpha that is shown as full is read as full.

* `exists_ofText?_fixedText`: the double that a printed number is read as.
* `exists_percentageReads_double`, `exists_hueReads_double`, `exists_alphaReads_double`: the numbers
  of a color, each with what it is printed as again.
-/

namespace ColorMod

open Scalar Written Double Decimal

/-- A printed number is read as the double that its value is rounded to. -/
theorem exists_ofText?_fixedText {q : ℚ} (h0 : 0 ≤ q) (h1 : q ≤ 1000) : ∃ (x : Float) (r : ℚ),
    ofText? (fixedText 10 q) = some x ∧ exactValue? x = some r ∧ Rounds (roundPlaces 10 q) r := by
  obtain ⟨coefficient, places, hparse, hplaces, hvalue⟩ := Numeral.exists_parse?_fixedText h0
  have hnear := (abs_le.mp (abs_roundPlaces_sub_le 10 q)).2
  have hbound : |roundPlaces 10 q| ≤ 1001 := by
    rw [abs_of_nonneg (roundPlaces_nonneg 10 h0)]
    norm_num at hnear
    linarith
  have hsmall := lt_of_le_of_lt (le_abs_self _) (abs_lt_of_le hbound (by norm_num))
  rw [← hvalue] at hsmall ⊢
  obtain ⟨r, hr, hrounds⟩ := exists_ofDecimal coefficient (by omega) hsmall
  refine ⟨_, r, ?_, hr, hrounds⟩
  rw [ofText?, hparse]
  exact if_pos (Option.isSome_of_eq_some hr)

theorem number_of_value {x : Float} {q : ℚ} (h : exactValue? x = some q) :
    number x = fixedText 10 q := by
  rw [number, show value? x = some q from h]

/-- A printed number of a range is read as a double that is near to a number of that range, and near
to its end only if the end itself is printed. -/
theorem exists_read {x : Float} {q : ℚ} {n : ℕ} (hx : exactValue? x = some q) (h0 : 0 ≤ q)
    (h1 : q < n + 1 / 2 / 10 ^ 10) (hn : 1 ≤ n) (hn' : n < 1000) : ∃ (z : Float) (r v : ℚ),
    ofText? (number x) = some z ∧ exactValue? z = some r ∧ v = roundPlaces 10 q ∧ 0 ≤ r ∧
      |r - v| ≤ n / (4 * 10 ^ 15) ∧ (0 ≤ v ∧ v ≤ n) ∧
      (number x ≠ fixedText 10 n → v ≤ n - 1 / 10 ^ 10) := by
  have hn1 : (1 : ℚ) ≤ n := by exact_mod_cast hn
  have hn1000 : (n : ℚ) ≤ 999 := by exact_mod_cast Nat.le_of_lt_succ hn'
  have hv0 := roundPlaces_nonneg 10 h0
  have hshown := roundPlaces_eq_or_le h1
  have hv : roundPlaces 10 q ≤ n := by
    rcases hshown with h | h
    · exact h.le
    · exact h.trans (sub_le_self _ (by positivity))
  obtain ⟨z, r, hz, hr, hrounds⟩ := exists_ofText?_fixedText h0 (by norm_num at h1; linarith)
  refine ⟨z, r, _, by rw [number_of_value hx]; exact hz, hr, rfl, hrounds.nonneg hv0,
    hrounds.abs_sub_le (by rw [abs_of_nonneg hv0]; exact hv) hn1, ⟨hv0, hv⟩, fun hne => ?_⟩
  refine hshown.resolve_left fun heq => hne ?_
  rw [number_of_value hx, Numeral.fixedText_eq_iff h0 (Nat.cast_nonneg n), heq, roundPlaces_natCast]

theorem one_le_clamp_iff {x : ℚ} : 1 ≤ clamp x ↔ 1 ≤ x := by
  rw [clamp_eq]
  grind

/-- What is near to the number that a double is rounded to is printed as the double is. -/
theorem number_eq_of_near {x y : Float} {q r e : ℚ} (hx : exactValue? x = some q)
    (hy : exactValue? y = some r) (h : |r - roundPlaces 10 q| ≤ e) (he : e < 1 / 2 / 10 ^ 10) :
    number y = number x := by
  rw [number_of_value hx, number_of_value hy, fixedText_eq_of_near (h.trans_lt he)]

/-! ## Percentages -/

/-- A percentage is read as a share that is printed alike; it is full just when it is shown so. -/
theorem exists_percentageReads_double (x : Float) : ∃ y, PercentageReads x y ∧
    percentage y = percentage x ∧ (1 ≤ clamp y ↔ percentage x = "100%") := by
  obtain ⟨p, q, -, ⟨hp0, hp1⟩, hq, hrounds⟩ := exists_percentage x
  have hbound : |p * 100| ≤ 100 := by
    rw [abs_of_nonneg (by positivity)]
    linarith
  have hq100 := (abs_le.mp (hrounds.abs_sub_le hbound (by norm_num))).2
  obtain ⟨z, r, v, hz, hr, hv, hr0, hrclose, ⟨hv0, hv100⟩, hpartial⟩ := exists_read (n := 100) hq
    (hrounds.nonneg (by positivity)) (by norm_num; linarith) (by decide) (by decide)
  push_cast at hrclose hv100 hpartial
  obtain ⟨hrlow, hrhigh⟩ := abs_le.mp hrclose
  have hshare : |r / 100| ≤ 2 := by
    rw [abs_of_nonneg (by positivity), div_le_iff₀ (by norm_num)]
    linarith
  obtain ⟨s, hs, hdiv⟩ := exists_div hr exactValue?_hundred (by norm_num)
    (abs_lt_of_le hshare (by norm_num))
  obtain ⟨hslow, hshigh⟩ := abs_le.mp (hdiv.abs_sub_le hshare (by norm_num))
  have hsclose : |s - v / 100| ≤ 1 / 10 ^ 15 := by
    rw [abs_le]
    constructor <;> linarith
  refine ⟨z / 100, ⟨z, hz, rfl⟩, ?_, ?_⟩
  · obtain ⟨c, t, hc, ⟨hc0, hc1⟩, ht, hagain⟩ := exists_percentage (z / 100)
    cases (exactValue?_clamp hs).symm.trans hc
    have hclamp := abs_clamp_sub_le (v := v / 100) (by positivity) (by linarith) s
    obtain ⟨hclow, hchigh⟩ := abs_le.mp (hclamp.trans hsclose)
    have hbound' : |clamp s * 100| ≤ 100 := by
      rw [abs_of_nonneg (by positivity)]
      linarith
    obtain ⟨htlow, hthigh⟩ := abs_le.mp (hagain.abs_sub_le hbound' (by norm_num))
    have htclose : |t - roundPlaces 10 q| ≤ 1 / 10 ^ 12 := by
      rw [← hv, abs_le]
      constructor <;> linarith
    rw [percentage, percentage, number_eq_of_near hq ht htclose (by norm_num)]
  · have hfull : (ofText? "100" : Option Float).all fun z => 1 ≤ clamp (z / 100) := by
      decide +kernel
    have hshown : fixedText 10 100 = "100" := by decide +kernel
    constructor
    · intro hone
      by_contra hne
      have hlt := hpartial fun h => hne (by rw [percentage, h, hshown]; rfl)
      rw [le_iff exactValue?_one (exactValue?_clamp hs), one_le_clamp_iff] at hone
      have hsv := (abs_le.mp hsclose).2
      linarith
    · intro htext
      have hnumber : number (clamp x * 100) = "100" := (String.append_left_inj "%").mp htext
      rw [hnumber] at hz
      rw [hz] at hfull
      simpa using hfull

/-! ## Hues -/

/-- A hue is printed as a number of degrees from zero up to a full turn. -/
theorem exists_rem_wheel {x : Float} {p : ℚ} (hx : exactValue? x = some p) :
    ∃ q, exactValue? (rem x 360) = some q ∧ 0 ≤ q ∧ |q - rem p 360| ≤ 360 / (4 * 10 ^ 15) := by
  have h0 := rem_nonneg (by norm_num : (0 : ℚ) < 360) p
  have h360 := rem_lt (by norm_num : (0 : ℚ) < 360) p
  obtain ⟨q, hq, hrounds⟩ := exists_rem hx exactValue?_wheel (by norm_num) (by norm_num)
  exact ⟨q, hq, hrounds.nonneg h0,
    hrounds.abs_sub_le (by rw [abs_of_nonneg h0]; exact h360.le) (by norm_num)⟩

/-- A hue is read as one that is printed alike, unless it is shown as a full turn. -/
theorem exists_hueReads_double {x : Float} (hx : (value? x).isSome) :
    ∃ y, HueReads x y ∧ (value? y).isSome ∧ (hue y = hue x ↔ hue x ≠ "360") := by
  obtain ⟨p, hp⟩ := Option.isSome_iff_exists.mp hx
  have h360 := rem_lt (by norm_num : (0 : ℚ) < 360) p
  obtain ⟨q, hq, hq0, hqclose⟩ := exists_rem_wheel hp
  have hqhigh := (abs_le.mp hqclose).2
  obtain ⟨z, r, v, hz, hr, hv, hr0, hrclose, ⟨hv0, hv360⟩, hpartial⟩ := exists_read (n := 360) hq
    hq0 (by norm_num; linarith) (by decide) (by decide)
  push_cast at hrclose hv360 hpartial
  obtain ⟨hrlow, hrhigh⟩ := abs_le.mp hrclose
  refine ⟨z, hz, Option.isSome_of_eq_some hr, ?_⟩
  have hshown : fixedText 10 360 = "360" := by decide +kernel
  constructor
  · rintro hsame hturn
    have hzero : (ofText? "360" : Option Float).all fun z => hue z = "0" := by decide +kernel
    have hz' : ofText? "360" = some z := by rw [← hturn]; exact hz
    rw [hz', Option.all_some, hsame, hturn] at hzero
    exact absurd hzero (by decide)
  · intro hne
    have hlt := hpartial fun h => hne (h.trans hshown)
    have hrem : rem r 360 = r := rem_of_mem hr0 (by linarith)
    obtain ⟨t, ht, -, htclose⟩ := exists_rem_wheel hr
    rw [hrem] at htclose
    obtain ⟨htlow, hthigh⟩ := abs_le.mp htclose
    have hclose : |t - roundPlaces 10 q| ≤ 1 / 10 ^ 12 := by
      rw [← hv, abs_le]
      constructor <;> linarith
    exact number_eq_of_near hq ht hclose (by norm_num)

/-! ## Alpha -/

/-- Alpha as a number is read as one that is printed alike; it is full just when it is shown so. -/
theorem exists_alphaReads_double (x : Float) : ∃ y : Float, ofText? (number (clamp x)) = some y ∧
    number (clamp y) = number (clamp x) ∧ (1 ≤ clamp y ↔ number (clamp x) = "1") := by
  obtain ⟨q, hq, hq0, hq1⟩ := exists_clamp x
  obtain ⟨z, r, v, hz, hr, hv, hr0, hrclose, ⟨hv0, hv1⟩, hpartial⟩ := exists_read (n := 1) hq
    hq0 (by norm_num; linarith) (by decide) (by decide)
  push_cast at hrclose hv1 hpartial
  refine ⟨z, hz, ?_, ?_⟩
  · have hclose := (abs_clamp_sub_le hv0 hv1 r).trans hrclose
    rw [hv] at hclose
    exact number_eq_of_near hq (exactValue?_clamp hr) hclose (by norm_num)
  · have hfull : (ofText? "1" : Option Float).all fun z => 1 ≤ clamp z := by decide +kernel
    have hshown : fixedText 10 1 = "1" := by decide +kernel
    constructor
    · intro hone
      by_contra hne
      have hlt := hpartial fun h => hne (h.trans hshown)
      rw [le_iff exactValue?_one (exactValue?_clamp hr), one_le_clamp_iff] at hone
      have hrhigh := (abs_le.mp hrclose).2
      linarith
    · intro htext
      rw [htext] at hz
      rw [hz] at hfull
      simpa using hfull

/-- A byte is full just when its channel is. -/
theorem one_le_clamp_channelOfByte_iff {n : ℕ} (hn : n < 256) :
    (1 : Float) ≤ clamp (channelOfByte n) ↔ n = 255 := by
  obtain ⟨t, ht, hrounds, hchannel⟩ := exists_channelOfByte hn
  rw [le_iff exactValue?_one (exactValue?_clamp ht), one_le_clamp_iff]
  constructor
  · intro hfull
    by_contra hne
    have hle : (n : ℚ) ≤ 254 := by exact_mod_cast (show n ≤ 254 by omega)
    have hclose := (abs_le.mp hchannel).2
    linarith
  · rintro rfl
    have hone : Rounds ((1 : ℕ) : ℚ) t := by simpa using hrounds
    rw [hone.eq_of_natCast (by decide), Nat.cast_one]

end ColorMod
