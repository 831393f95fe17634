import ColorMod.Color.Written
import ColorMod.Node
import ColorMod.Proofs.Numerals

/-!
# The node that a written color is read as

`Node.ofText` takes the text of a color apart: a call into its name and its arguments, anything else
is a word.  Arguments are set apart by blanks and commas, and a run of other characters between them
is a number with its unit, an operator or a word (`Node.ofRun`).

* `ofText_spaceForm`, `ofText_commaForm`: the texts of the two syntaxes come apart into the channels
  and alpha.
* `ofRun_fixedText`, `ofRun_fixedText_percent`, `ofRun_toString`: what their numbers come out as.
-/

namespace ColorMod

namespace Node

/-- A character of the amount of a number. -/
def isAmount (c : Char) : Bool :=
  c.isDigit || c == '.' || c == '+' || c == '-'

/-- The node of a run of characters between blanks and commas. -/
def ofRun (run : String) : Node :=
  let cs := run.toList
  if ["+", "-", "*", "/"].contains run then operator run
  else if (cs.head?.map isAmount).getD false then
    number (.ofList (cs.takeWhile isAmount)) (.ofList (cs.dropWhile isAmount))
  else word run

/-- The node of the run that ends here, whose characters are given the last one first. -/
def ending (run : List Char) : List Node :=
  if run.isEmpty then [] else [ofRun (.ofList run.reverse)]

/-- The arguments in `cs`, given the characters of the run that is being read. -/
def tokensFrom (run : List Char) : List Char → List Node
  | [] => ending run
  | c :: cs =>
    if c == ' ' then ending run ++ tokensFrom [] cs
    else if c == ',' then ending run ++ comma :: tokensFrom [] cs
    else tokensFrom (c :: run) cs

/-- The arguments that a text spells. -/
def tokens (cs : List Char) : List Node :=
  tokensFrom [] cs

/-- The node that the text of a color spells: a function call, or else a word. -/
def ofText (text : String) : Node :=
  let name := text.toList.takeWhile (· != '(')
  match text.toList.dropWhile (· != '(') with
  | _ :: inside =>
    if inside.getLast? = some ')' then function (.ofList name) (tokens inside.dropLast)
    else word text
  | [] => word text

example : ofText "hsla(30.5, 100%, 50%, 0.25)" =
    function "hsla" [number "30.5", comma, number "100" "%", comma, number "50" "%", comma,
      number "0.25"] := by
  rfl

/-! ## Arguments -/

theorem kind_ofRun_ne_space (run : String) : (ofRun run).kind ≠ .space := by
  rw [ofRun]
  intro h
  split_ifs at h
  all_goals cases h

theorem kind_ne_space_of_mem_tokensFrom {run cs : List Char} {n : Node}
    (h : n ∈ tokensFrom run cs) : n.kind ≠ .space := by
  have hending : ∀ run, n ∈ ending run → n.kind ≠ .space := by
    intro run h
    rw [ending] at h
    split at h
    · cases h
    · rw [List.mem_singleton.mp h]
      exact kind_ofRun_ne_space _
  induction cs generalizing run with
  | nil => exact hending run h
  | cons c cs ih =>
    rw [tokensFrom] at h
    split_ifs at h
    · exact (List.mem_append.mp h).elim (hending run) ih
    · rcases List.mem_append.mp h with h | h
      · exact hending run h
      · rcases List.mem_cons.mp h with rfl | h
        · rintro ⟨⟩
        · exact ih h
    · exact ih h

/-- No argument of a call that is read from a text is a space. -/
theorem kind_ne_space_of_ofText {text name : String} {args : List Node}
    (h : ofText text = function name args) : ∀ a ∈ args, a.kind ≠ .space := by
  rw [ofText] at h
  split at h
  · split at h
    · injection h with hhead hargs
      rw [← List.tail_eq_of_cons_eq (List.append_cancel_right hargs)]
      exact fun a => kind_ne_space_of_mem_tokensFrom
    · cases h
  · cases h

/-! ## Runs -/

/-- Some characters, none of them a blank or a comma. -/
structure IsRun (s : String) : Prop where
  ne_nil : s.toList ≠ []
  solid : ∀ c ∈ s.toList, c ≠ ' ' ∧ c ≠ ','

theorem tokensFrom_append (run : List Char) {ds : List Char} (h : ∀ c ∈ ds, c ≠ ' ' ∧ c ≠ ',')
    (cs : List Char) : tokensFrom run (ds ++ cs) = tokensFrom (ds.reverse ++ run) cs := by
  induction ds generalizing run with
  | nil => rfl
  | cons d ds ih =>
    obtain ⟨hblank, hcomma⟩ := h d List.mem_cons_self
    rw [List.cons_append, tokensFrom, if_neg (by simpa using hblank), if_neg (by simpa using hcomma),
      ih _ fun c hc => h c (List.mem_cons_of_mem _ hc), List.reverse_cons, List.append_assoc]
    rfl

theorem IsRun.tokens_eq {s : String} (h : IsRun s) : tokens s.toList = [ofRun s] := by
  have happend := tokensFrom_append [] h.solid []
  rw [List.append_nil, List.append_nil] at happend
  rw [tokens, happend, tokensFrom, ending, if_neg (by simpa using h.ne_nil), List.reverse_reverse,
    String.ofList_toList]

theorem tokensFrom_append_blank (run cs ds : List Char) :
    tokensFrom run (cs ++ ' ' :: ds) = tokensFrom run cs ++ tokens ds := by
  induction cs generalizing run with
  | nil => rfl
  | cons c cs ih =>
    rw [List.cons_append, tokensFrom, tokensFrom, ih, ih]
    split_ifs <;> simp

theorem tokensFrom_append_comma (run cs ds : List Char) :
    tokensFrom run (cs ++ ',' :: ds) = tokensFrom run cs ++ comma :: tokens ds := by
  induction cs generalizing run with
  | nil => rfl
  | cons c cs ih =>
    rw [List.cons_append, tokensFrom, tokensFrom, ih, ih]
    split_ifs <;> simp

theorem tokens_intercalate_blank {texts : List String} (h : ∀ s ∈ texts, IsRun s) :
    tokens (" ".intercalate texts).toList = texts.map ofRun := by
  induction texts with
  | nil => rfl
  | cons s texts ih =>
    have hs := h s List.mem_cons_self
    have ih := ih fun t ht => h t (List.mem_cons_of_mem _ ht)
    cases texts with
    | nil => exact hs.tokens_eq
    | cons t texts =>
      rw [String.intercalate_cons_cons, String.toList_append, String.toList_append,
        List.append_assoc]
      change tokensFrom [] (s.toList ++ ' ' :: (" ".intercalate (t :: texts)).toList) = _
      rw [tokensFrom_append_blank, ih]
      exact congrArg (· ++ _) hs.tokens_eq

theorem tokens_intercalate_comma {texts : List String} (h : ∀ s ∈ texts, IsRun s) :
    tokens (", ".intercalate texts).toList = (texts.map ofRun).intersperse comma := by
  induction texts with
  | nil => rfl
  | cons s texts ih =>
    have hs := h s List.mem_cons_self
    have ih := ih fun t ht => h t (List.mem_cons_of_mem _ ht)
    cases texts with
    | nil => exact hs.tokens_eq
    | cons t texts =>
      rw [String.intercalate_cons_cons, String.toList_append, String.toList_append,
        List.append_assoc]
      change tokensFrom [] (s.toList ++ ',' :: ' ' :: _) = _
      rw [tokensFrom_append_comma]
      change tokens s.toList ++ comma :: tokens (", ".intercalate (t :: texts)).toList = _
      rw [ih, hs.tokens_eq]
      rfl

/-- A call comes apart at its parentheses. -/
theorem ofText_call {name : String} (hname : ∀ c ∈ name.toList, c ≠ '(') (inside : String) :
    ofText (name ++ "(" ++ inside ++ ")") = function name (tokens inside.toList) := by
  have hlist : (name ++ "(" ++ inside ++ ")").toList =
      name.toList ++ '(' :: (inside.toList ++ [')']) := by
    simp only [String.toList_append, List.append_assoc]
    rfl
  have hbefore : ∀ c ∈ name.toList, (c != '(') = true := fun c hc => by simpa using hname c hc
  rw [ofText, hlist, List.takeWhile_append_of_pos hbefore, List.dropWhile_append_of_pos hbefore]
  simp

/-! ## Numbers -/

open Decimal Numeral

theorem isAmount_of_isPlain {c : Char} (h : IsPlain c) : isAmount c = true := by
  rcases h with h | rfl
  · rw [isAmount, h, Bool.true_or, Bool.true_or, Bool.true_or]
  · rfl

/-- A run that starts with a digit is a number, up to the unit. -/
theorem ofRun_append {amount : String} {c : Char} {cs : List Char} (hamount : amount.toList = c :: cs)
    (hc : c.isDigit) (hplain : ∀ d ∈ c :: cs, IsPlain d) {unit : String}
    (hunit : ∀ d ∈ unit.toList.head?, isAmount d = false) :
    ofRun (amount ++ unit) = number amount unit := by
  have hlist : (amount ++ unit).toList = (c :: cs) ++ unit.toList := by
    rw [String.toList_append, hamount]
  have hoperator : ["+", "-", "*", "/"].contains (amount ++ unit) = false := by
    rw [List.contains_eq_mem, decide_eq_false_iff_not]
    intro hmem
    have hhead : ∀ s ∈ ["+", "-", "*", "/"], s.toList.head?.any Char.isDigit = false := by decide
    have h := hhead _ hmem
    rw [hlist] at h
    simp [hc] at h
  have hall : ∀ d ∈ c :: cs, isAmount d = true := fun d hd => isAmount_of_isPlain (hplain d hd)
  have hrest : unit.toList.takeWhile isAmount = [] ∧
      unit.toList.dropWhile isAmount = unit.toList := by
    cases hu : unit.toList with
    | nil => exact ⟨rfl, rfl⟩
    | cons d ds =>
      have hd : isAmount d = false := hunit d (by rw [hu]; rfl)
      exact ⟨List.takeWhile_cons_of_neg (by simp [hd]), List.dropWhile_cons_of_neg (by simp [hd])⟩
  have hstart : ((c :: cs ++ unit.toList).head?.map isAmount).getD false = true :=
    hall c List.mem_cons_self
  rw [ofRun, hoperator, hlist, if_neg (by decide), if_pos hstart, List.takeWhile_append_of_pos hall,
    List.dropWhile_append_of_pos hall, hrest.1, hrest.2, List.append_nil, ← hamount,
    String.ofList_toList, String.ofList_toList]

variable {q : ℚ}

theorem ofRun_fixedText (hq : 0 ≤ q) : ofRun (fixedText 10 q) = number (fixedText 10 q) := by
  obtain ⟨c, cs, htext, hc, hplain⟩ :=
    exists_unitsText_eq_cons (by decide : 0 < 10) (scaled 10 q).natAbs
  have hrun : ofRun (fixedText 10 q ++ "") = number (fixedText 10 q) "" :=
    ofRun_append ((toList_fixedText hq 10).trans htext) hc hplain (by simp)
  rwa [String.append_empty] at hrun

theorem ofRun_fixedText_percent (hq : 0 ≤ q) :
    ofRun (fixedText 10 q ++ "%") = number (fixedText 10 q) "%" := by
  obtain ⟨c, cs, htext, hc, hplain⟩ :=
    exists_unitsText_eq_cons (by decide : 0 < 10) (scaled 10 q).natAbs
  exact ofRun_append ((toList_fixedText hq 10).trans htext) hc hplain
    (by simp [isAmount])

theorem ofRun_toString (n : ℕ) : ofRun (toString n) = number (toString n) := by
  have hlist : (toString n).toList = digits n := Nat.toList_repr
  have hdigits : ∀ c ∈ digits n, c.isDigit := fun c => isDigit_of_mem_digits
  obtain ⟨c, cs, hcons⟩ := List.exists_cons_of_ne_nil (l := digits n) Nat.toDigits_ne_nil
  rw [hcons] at hlist hdigits
  have hrun : ofRun (toString n ++ "") = number (toString n) "" :=
    ofRun_append hlist (hdigits c List.mem_cons_self) (fun d hd => .inl (hdigits d hd)) (by simp)
  rwa [String.append_empty] at hrun

/-! ## Written numbers are runs -/

theorem isRun_toString (n : ℕ) : IsRun (toString n) := by
  have hlist : (toString n).toList = digits n := Nat.toList_repr
  refine ⟨by rw [hlist]; exact Nat.toDigits_ne_nil, fun c hc => ?_⟩
  rw [hlist] at hc
  have hdigit := isDigit_of_mem_digits hc
  constructor <;> rintro rfl <;> exact absurd hdigit (by decide)

theorem isRun_fixedText (q : ℚ) : IsRun (fixedText 10 q) := by
  obtain ⟨c, cs, htext, hc, hplain⟩ :=
    exists_unitsText_eq_cons (by decide : 0 < 10) (scaled 10 q).natAbs
  have hsolid : ∀ d, IsPlain d → d ≠ ' ' ∧ d ≠ ',' := by
    rintro d (hd | rfl)
    · constructor <;> rintro rfl <;> exact absurd hd (by decide)
    · decide
  constructor
  · rw [fixedText, String.toList_ofList, htext]
    simp
  · intro d hd
    rw [fixedText, String.toList_ofList, htext, List.mem_append] at hd
    rcases hd with hd | hd
    · split at hd
      · cases List.mem_singleton.mp hd
        decide
      · cases hd
    · exact hsolid d (hplain d hd)

theorem IsRun.append {s t : String} (hs : IsRun s) (ht : ∀ c ∈ t.toList, c ≠ ' ' ∧ c ≠ ',') :
    IsRun (s ++ t) := by
  constructor
  · rw [String.toList_append]
    exact List.append_ne_nil_of_left_ne_nil hs.ne_nil _
  · intro c hc
    rw [String.toList_append, List.mem_append] at hc
    rcases hc with hc | hc
    · exact hs.solid c hc
    · exact ht c hc

section

variable {α : Type} [Scalar α]

theorem isRun_number (x : α) : IsRun (Written.number x) := by
  rw [Written.number]
  split
  · exact isRun_fixedText _
  · exact ⟨by simp, by simp⟩

theorem isRun_percentage (x : α) : IsRun (Written.percentage x) :=
  (isRun_number _).append (by simp)

theorem isRun_hue (x : α) : IsRun (Written.hue x) :=
  isRun_number _

end

/-! ## The two syntaxes -/

section

open Scalar Written

variable {α : Type} [Scalar α] {name : String} {texts : List String}

theorem ofText_spaceForm (hname : ∀ c ∈ name.toList, c ≠ '(') (htexts : ∀ s ∈ texts, IsRun s)
    (alpha : α) :
    ofText (spaceForm name texts alpha) = function name (texts.map ofRun ++
      if 1 ≤ clamp alpha then [] else [operator "/", ofRun (percentage (clamp alpha))]) := by
  have hcall := ofText_call hname
    (" ".intercalate texts ++ if 1 ≤ clamp alpha then "" else " / " ++ percentage (clamp alpha))
  rw [← String.append_assoc] at hcall
  refine hcall.trans (congrArg (function name) ?_)
  split
  · rw [String.append_empty, tokens_intercalate_blank htexts, List.append_nil]
  · rw [String.toList_append, String.toList_append]
    change tokensFrom [] (_ ++ ' ' :: ('/' :: ' ' :: _)) = _
    rw [tokensFrom_append_blank]
    change tokens _ ++ tokensFrom [] (['/'] ++ ' ' :: (percentage (clamp alpha)).toList) = _
    rw [tokensFrom_append_blank, tokens_intercalate_blank htexts, (isRun_percentage _).tokens_eq]
    rfl

theorem ofText_commaForm (hname : ∀ c ∈ name.toList, c ≠ '(') (htexts : ∀ s ∈ texts, IsRun s)
    (alpha : α) :
    ofText (commaForm name texts alpha) =
      if 1 ≤ clamp alpha then function name ((texts.map ofRun).intersperse comma)
      else function (name ++ "a")
        (((texts ++ [Written.number (clamp alpha)]).map ofRun).intersperse comma) := by
  rw [commaForm]
  split
  · rw [ofText_call hname, tokens_intercalate_comma htexts]
  · have hname' : ∀ c ∈ (name ++ "a").toList, c ≠ '(' := by
      intro c hc
      rw [String.toList_append, List.mem_append] at hc
      rcases hc with hc | hc
      · exact hname c hc
      · cases List.mem_singleton.mp hc
        decide
    have htexts' : ∀ s ∈ texts ++ [Written.number (clamp alpha)], IsRun s := by
      intro s hs
      rcases List.mem_append.mp hs with hs | hs
      · exact htexts s hs
      · rw [List.mem_singleton.mp hs]
        exact isRun_number _
    have hcall : name ++ "a(" = name ++ "a" ++ "(" := by
      rw [String.append_assoc]
      rfl
    rw [hcall, ofText_call hname', tokens_intercalate_comma htexts']

end

end Node

end ColorMod
