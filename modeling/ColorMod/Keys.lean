/-!
# Keys that were seen

What goes through the entries of a list by their keys, and remembers the keys, comes to an end: with
each key that is new there are fewer entries left (`unseenKeys_cons_lt`).
-/

namespace ColorMod

section

variable {κ β : Type} [DecidableEq κ]

/-- How many entries have a key that was not seen. -/
def unseenKeys (entries : List (κ × β)) (seen : List κ) : Nat :=
  (entries.filter fun e => e.1 ∉ seen).length

theorem unseenKeys_cons_le (entries : List (κ × β)) (key : κ) (seen : List κ) :
    unseenKeys entries (key :: seen) ≤ unseenKeys entries seen := by
  unfold unseenKeys
  rw [← List.countP_eq_length_filter, ← List.countP_eq_length_filter]
  apply List.countP_mono_left
  intro e _ h
  simp only [List.mem_cons, not_or, decide_eq_true_eq] at h ⊢
  exact h.2

theorem unseenKeys_cons_lt {entries : List (κ × β)} {key : κ} {seen : List κ} {value : β}
    (hseen : key ∉ seen) (hlookup : entries.lookup key = some value) :
    unseenKeys entries (key :: seen) < unseenKeys entries seen := by
  induction entries with
  | nil => simp at hlookup
  | cons e entries ih =>
    have hle := unseenKeys_cons_le entries key seen
    unfold unseenKeys at hle ih ⊢
    by_cases he : key = e.1
    · subst he
      rw [List.filter_cons_of_neg (by simp), List.filter_cons_of_pos (by simpa using hseen),
        List.length_cons]
      omega
    · have hrest : entries.lookup key = some value := by
        rw [List.lookup_cons, beq_false_of_ne he] at hlookup
        exact hlookup
      have hlt := ih hrest
      by_cases hmem : e.1 ∈ seen
      · rw [List.filter_cons_of_neg (by simp [hmem]), List.filter_cons_of_neg (by simp [hmem])]
        exact hlt
      · rw [List.filter_cons_of_pos (by simp [hmem, Ne.symm he]),
          List.filter_cons_of_pos (by simp [hmem]), List.length_cons, List.length_cons]
        omega

end

end ColorMod
