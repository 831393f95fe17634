import Mathlib.Data.List.TakeDrop
import Mathlib.Data.Nat.Log
import Mathlib.Tactic.Ring
import ColorMod.Config
import ColorMod.Proofs.AlphaChannel

/-!
# What the limits of reading come to

A text is read with limits just as it is read without, up to the first thing in it that is beyond
them.  What it asks for can be told from the value that it spells (`Json.demands`): an integer has no
zeros at the front, so the digits that are written are those of the number.

* `Limits.within_bind`: what is read after something else.
* `log_ofDigits`: how many digits a number is written with.
* `readNumber_eq_within`, `readValue_eq_within`: reading with limits, against reading without.
* `read_eq_within`: a whole text.
* `fromUTF8?_eq_some_iff`: bytes are read as the text whose encoding they are.
* `readObject_of_object`: the bytes of a file that spell an object.
-/

namespace ColorMod.Json

/-! ## What a value asks for -/

/-- The digits of an integer, without its sign. -/
def digitCount (n : Int) : Nat :=
  Nat.log 10 n.natAbs + 1

mutual

/-- What reading a value asks for, in the order of the text, with so many arrays and objects around
it. -/
def demands (level : Nat) : Json → List Demand
  | int n => [.integer (digitCount n)]
  | array items => .array (level + 1) :: itemDemands (level + 1) items
  | object members => .object (level + 1) :: memberDemands (level + 1) members
  | _ => []

def itemDemands (level : Nat) : List Json → List Demand
  | [] => []
  | item :: items => item.demands level ++ itemDemands level items

def memberDemands (level : Nat) : Members → List Demand
  | [] => []
  | (_, value) :: members => value.demands level ++ memberDemands level members

end

namespace Limits

/-- The first of several demands that is beyond the limits. -/
def firstBeyond? (limits : Limits) (demands : List Demand) : Option Demand :=
  demands.find? fun demand => !limits.allows demand

/-- What is read, if all that it asks for is within the limits. -/
def within {β : Type} (limits : Limits) (demands : List Demand) (found : β) :
    Except ReadError β :=
  match limits.firstBeyond? demands with
  | some demand => .error (.beyond demand)
  | none => .ok found

section

variable {β γ : Type} (limits : Limits)

theorem within_cons (demand : Demand) (demands : List Demand) (found : β) :
    limits.within (demand :: demands) found =
      (limits.meet demand >>= fun _ => limits.within demands found) := by
  rw [within, firstBeyond?, List.find?_cons, meet]
  cases limits.allows demand <;> rfl

theorem within_append (demands more : List Demand) (found : β) :
    limits.within (demands ++ more) found =
      (limits.within demands () >>= fun _ => limits.within more found) := by
  induction demands with
  | nil => rfl
  | cons demand demands ih => rw [List.cons_append, within_cons, within_cons, bind_assoc, ih]

theorem within_bind (demands : List Demand) (found : β) (next : β → Except ReadError γ) :
    (limits.within demands found >>= next) =
      (limits.within demands () >>= fun _ => next found) := by
  unfold within
  cases limits.firstBeyond? demands <;> rfl

theorem meet_unlimited (demand : Demand) : unlimited.meet demand = .ok () := by
  cases demand <;> rfl

/-- After some demands, reading with limits gives what reading without them does, as far as all that
is asked for is within the limits. -/
def Follows (before : List Demand) (free limited : Except ReadError β)
    (demands : β → List Demand) : Prop :=
  ∀ found, free = .ok found →
    (limits.within before () >>= fun _ => limited) = limits.within (demands found) found

namespace Follows

variable {limits} {before : List Demand} {demands : γ → List Demand}

theorem of_eq {free limited : Except ReadError γ} (h : limited = free >>= fun found =>
    limits.within (demands found) found) : limits.Follows [] free limited demands := by
  intro found hfound
  rw [h, hfound]
  rfl

/-- What asks for nothing is read alike. -/
theorem same (result : Except ReadError γ) : limits.Follows [] result result fun _ => [] :=
  fun _ => id

theorem meet (demand : Demand) :
    limits.Follows [] (unlimited.meet demand) (limits.meet demand) fun _ => [demand] := by
  intro found _
  rw [within_cons]
  exact (bind_pure (limits.meet demand)).symm

theorem pure {found : γ} (h : demands found = before) :
    limits.Follows before (.ok found) (.ok found) demands := by
  intro found' hfound
  cases hfound
  rw [h, ← within_bind]
  exact bind_pure _

theorem bind {free limited : Except ReadError β} {next next' : β → Except ReadError γ}
    {asked : β → List Demand} (hfirst : limits.Follows [] free limited asked)
    (hnext : ∀ b, limits.Follows (before ++ asked b) (next b) (next' b) demands) :
    limits.Follows before (free >>= next) (limited >>= next') demands := by
  intro found hfound
  obtain ⟨b, hb, hfound⟩ := bind_eq_ok_iff.mp hfound
  have hlimited : limited = limits.within (asked b) b := hfirst b hb
  rw [← hnext b found hfound, hlimited, within_append, bind_assoc]
  exact congrArg _ (funext fun _ => within_bind limits (asked b) b next')

end Follows

end

end Limits

/-! ## Digits -/

/-- Digits after a number lie between the number with zeros and the next number with zeros. -/
theorem foldl_digits_bounds {ds : List Nat} (h : ∀ d ∈ ds, d < 10) (n : Nat) :
    10 ^ ds.length * n ≤ ds.foldl (fun n d => 10 * n + d) n ∧
      ds.foldl (fun n d => 10 * n + d) n < 10 ^ ds.length * (n + 1) := by
  induction ds generalizing n with
  | nil => simp
  | cons d ds ih =>
    obtain ⟨hd, hds⟩ := List.forall_mem_cons.mp h
    obtain ⟨hleast, hmost⟩ := ih hds (10 * n + d)
    rw [List.foldl_cons, List.length_cons, Nat.pow_succ]
    constructor
    · calc 10 ^ ds.length * 10 * n = 10 ^ ds.length * (10 * n) := by ring
        _ ≤ 10 ^ ds.length * (10 * n + d) := Nat.mul_le_mul_left _ (by omega)
        _ ≤ _ := hleast
    · calc _ < 10 ^ ds.length * (10 * n + d + 1) := hmost
        _ ≤ 10 ^ ds.length * (10 * (n + 1)) := Nat.mul_le_mul_left _ (by omega)
        _ = 10 ^ ds.length * 10 * (n + 1) := by ring

/-- A number without zeros at the front has as many digits as are written. -/
theorem log_ofDigits {d : Nat} {ds : List Nat} (h : ∀ e ∈ d :: ds, e < 10) (hd : d ≠ 0) :
    Nat.log 10 (Numeral.ofDigits (d :: ds)) = ds.length := by
  obtain ⟨hlow, hds⟩ := List.forall_mem_cons.mp h
  have hstart : Numeral.ofDigits (d :: ds) = ds.foldl (fun n d => 10 * n + d) d := by
    rw [Numeral.ofDigits, List.foldl_cons, Nat.mul_zero, Nat.zero_add]
  obtain ⟨hleast, hmost⟩ := foldl_digits_bounds hds d
  rw [hstart]
  refine Nat.log_eq_of_pow_le_of_lt_pow ?_ ?_
  · exact (Nat.le_mul_of_pos_right _ (Nat.pos_of_ne_zero hd)).trans hleast
  · rw [Nat.pow_succ]
    exact hmost.trans_le (Nat.mul_le_mul_left _ hlow)

theorem lt_of_mem_spanDigits {cs : List Char} : ∀ d ∈ (spanDigits cs).1, d < 10 := by
  intro d hd
  rw [spanDigits, List.span_eq_takeWhile_dropWhile] at hd
  obtain ⟨c, hc, rfl⟩ := List.mem_map.mp hd
  have hdigit := List.all_eq_true.mp List.all_takeWhile c hc
  rw [Char.isDigit, Bool.and_eq_true, decide_eq_true_eq, decide_eq_true_eq] at hdigit
  have hmost : c.toNat ≤ 57 := hdigit.2
  change c.toNat - 48 < 10
  omega

/-- Of the digits before the point, there are as many as the number has. -/
theorem log_of_readWhole? {cs rest : List Char} {whole : List Nat}
    (h : readWhole? cs = some (whole, rest)) :
    Nat.log 10 (Numeral.ofDigits whole) + 1 = whole.length := by
  have hlow : ∀ d ∈ (spanDigits cs).1, d < 10 := lt_of_mem_spanDigits
  unfold readWhole? at h
  split at h
  · cases h
  next d ds _ hspan =>
  rw [hspan] at hlow
  rw [Option.some.injEq] at h
  split at h
  · cases h
    rfl
  · next hd =>
    cases h
    rw [log_ofDigits hlow hd, List.length_cons]

theorem digitCount_signed (negative : Bool) (n : Nat) :
    digitCount (if negative then -(n : Int) else n) = Nat.log 10 n + 1 := by
  cases negative <;> simp [digitCount]

/-! ## Reading -/

section

variable (limits : Limits)

theorem readAfter_eq_within (level : Nat) (negative : Bool) {whole : List Nat} (rest : List Char)
    (hwhole : Nat.log 10 (Numeral.ofDigits whole) + 1 = whole.length) :
    readAfter limits negative whole rest =
      (readAfter .unlimited negative whole rest >>= fun found =>
        limits.within (found.1.demands level) found) := by
  unfold readAfter
  dsimp only
  split
  · rw [Limits.meet_unlimited]
    change _ = limits.within [.integer (digitCount _)] _
    rw [digitCount_signed, hwhole, Limits.within_cons]
    rfl
  · rfl

theorem readNumber_eq_within (level : Nat) (cs : List Char) :
    readNumber limits cs =
      (readNumber .unlimited cs >>= fun found =>
        limits.within (found.1.demands level) found) := by
  unfold readNumber
  dsimp only
  cases hwhole : readWhole? (takeMinus cs).2 with
  | none => rfl
  | some found => exact readAfter_eq_within limits level _ found.2 (log_of_readWhole? hwhole)

/-- Literals ask for nothing. -/
theorem demands_of_readLiteral? {cs : List Char} {found : Json × List Char} (level : Nat)
    (h : readLiteral? cs = some found) : found.1.demands level = [] := by
  obtain ⟨literal, hliteral, hfound⟩ := List.exists_of_findSome?_eq_some h
  obtain ⟨rest, -, rfl⟩ := Option.map_eq_some_iff.mp hfound
  simp only [List.mem_cons, List.not_mem_nil, or_false] at hliteral
  rcases hliteral with rfl | rfl | rfl | rfl | rfl | rfl <;> rfl

theorem readAtom_eq_within (level : Nat) (cs : List Char) :
    readAtom limits cs =
      (readAtom .unlimited cs >>= fun found => limits.within (found.1.demands level) found) := by
  unfold readAtom
  split
  · next found hfound =>
    change Except.ok found = limits.within (found.1.demands level) found
    rw [demands_of_readLiteral? level hfound]
    rfl
  · exact readNumber_eq_within limits level cs

/-- Each of the three readers, by induction on how deep it may go. -/
theorem follows_read (fuel : Nat) :
    (∀ level cs, limits.Follows [] (readValue .unlimited fuel level cs)
      (readValue limits fuel level cs) fun found => found.1.demands level) ∧
    (∀ level cs, limits.Follows [] (readItems .unlimited fuel level cs)
      (readItems limits fuel level cs) fun found => itemDemands level found.1) ∧
    ∀ level cs, limits.Follows [] (readMembers .unlimited fuel level cs)
      (readMembers limits fuel level cs) fun found => memberDemands level found.1 := by
  induction fuel with
  | zero => exact ⟨nofun, nofun, nofun⟩
  | succ fuel ih =>
    obtain ⟨hvalue, hitems, hmembers⟩ := ih
    refine ⟨?_, ?_, ?_⟩
    · intro level cs
      rw [readValue.eq_def, readValue.eq_def]
      dsimp only
      split
      · exact .bind (.same _) fun _ => .pure rfl
      · refine .bind (.meet _) fun _ => ?_
        split
        · exact .pure rfl
        · exact .bind (hitems _ _) fun _ => .pure rfl
      · refine .bind (.meet _) fun _ => ?_
        split
        · exact .pure rfl
        · exact .bind (hmembers _ _) fun _ => .pure rfl
      · exact .of_eq (readAtom_eq_within limits level _)
    · intro level cs
      rw [readItems, readItems]
      refine .bind (hvalue level cs) fun _ => ?_
      dsimp only
      split
      · exact .bind (hitems _ _) fun _ => .pure rfl
      · exact .pure (List.append_nil _)
      · exact nofun
    · intro level cs
      rw [readMembers, readMembers]
      refine .bind (.same _) fun _ => ?_
      dsimp only
      split
      · refine .bind (hvalue level _) fun _ => ?_
        split
        · exact .bind (hmembers _ _) fun _ => .pure rfl
        · exact .pure (List.append_nil _)
        · exact nofun
      · exact nofun

/-- A text that is read without limits is read with them, unless something in it is beyond them; then
the first of it is told. -/
theorem read_eq_within {text : String} {value : Json} (h : read .unlimited text = .ok value) :
    read limits text = limits.within (value.demands 0) value := by
  have hread : limits.Follows [] (read .unlimited text) (read limits text) (demands 0) := by
    refine .bind ((follows_read limits _).1 _ _) fun _ => ?_
    dsimp only
    split
    · exact .pure rfl
    · exact nofun
  exact hread value h

end

end ColorMod.Json

namespace ColorMod

open Json (Members)

/-! ## The object of a file -/

/-- The members that count of an object as it is written: of those with one key, the last. -/
def Json.counted (written : Members) : Members :=
  ofMembers (mergedMembers written)

/-- The bytes are the encoding of the text. -/
def Encodes (bytes : List UInt8) (text : String) : Prop :=
  text.toUTF8.data.toList = bytes

theorem fromUTF8?_eq_some_iff {bytes : List UInt8} {text : String} :
    String.fromUTF8? ⟨bytes.toArray⟩ = some text ↔ Encodes bytes text := by
  unfold String.fromUTF8? Encodes
  constructor
  · intro h
    split at h
    · cases h
      rfl
    · cases h
  · rintro rfl
    exact dif_pos text.isValidUTF8

section

variable {bytes : List UInt8} {text : String}

theorem readObject_of_encodes (htext : Encodes bytes text) (limits : Json.Limits) (path : Path) :
    readObject limits path bytes =
      match Json.read limits text with
      | .error .malformed => .error (.notJson path)
      | .error (.beyond demand) => .error (.beyondLimits limits demand)
      | .ok written =>
        match written.merged with
        | .object members => .ok members
        | value => .error (.notObject path.name value.kindName) := by
  rewrite [readObject, fromUTF8?_eq_some_iff.mpr htext]
  rfl

theorem readObject_of_not_encodes (h : ∀ text, ¬Encodes bytes text) (limits : Json.Limits)
    (path : Path) : readObject limits path bytes = .error .notText := by
  have hnone : String.fromUTF8? ⟨bytes.toArray⟩ = none := by
    cases hread : String.fromUTF8? ⟨bytes.toArray⟩ with
    | none => rfl
    | some text => exact absurd (fromUTF8?_eq_some_iff.mp hread) (h text)
  rw [readObject, hnone]

/-- The members of an object that is read without limits, unless something in it is beyond them. -/
theorem readObject_of_object {written : Members} (htext : Encodes bytes text)
    (hread : Json.read .unlimited text = .ok (.object written)) (limits : Json.Limits)
    (path : Path) :
    readObject limits path bytes =
      match limits.firstBeyond? ((Json.object written).demands 0) with
      | some demand => .error (.beyondLimits limits demand)
      | none => .ok (Json.counted written) := by
  rewrite [readObject_of_encodes htext, Json.read_eq_within limits hread, Json.Limits.within]
  cases limits.firstBeyond? ((Json.object written).demands 0) with
  | some demand => rfl
  | none =>
    dsimp only
    rw [Json.merged, Json.counted]

end

end ColorMod
