import ColorMod.Report

/-!
# Outcomes and logs of runs

A run that goes on with another one ends as the first when that one fails, else as the second, and
its log is the two logs one after the other.

* `outcome_bind_eq_ok_iff`, `outcome_bind_eq_error_iff`: how the whole ends, from how its parts end.
* `diagnostics_bind_of_ok`, `diagnostics_bind_of_error`: what the whole notes.
* `returns_bind_iff`: both at once, for a run that does not fail.
* `fails_bind_iff`: when the whole fails.
* `Context.reject_ne_ok`: a rejected node is no color.
-/

namespace ColorMod

namespace Run

variable {α β γ : Type}

theorem outcome_ofArithmetic_eq_ok_iff {x : Except ArithmeticFault β} {b : β} :
    (ofArithmetic x : Run α β).outcome = .ok b ↔ x = .ok b := by
  cases x with
  | ok c => exact ⟨fun h => by cases h; rfl, fun h => by cases h; rfl⟩
  | error e => exact ⟨fun h => (by cases h), fun h => (by cases h)⟩

theorem bind_def (x : Run α β) (f : β → Run α γ) : x.bind f = (x >>= f) := rfl

/-- Runs one after the other put their logs together, whatever the grouping. -/
instance : LawfulMonad (Run α) := LawfulMonad.mk' (Run α)
  (by
    rintro β ⟨outcome, diagnostics, events⟩
    cases outcome with
    | ok b => simp [Functor.map, Run.bind]
    | error e => rfl)
  (by
    intro β γ b f
    simp [← bind_def, Run.bind, pure])
  (by
    rintro β γ δ ⟨outcome, diagnostics, events⟩ f g
    cases outcome with
    | ok b => cases h : (f b).outcome <;> simp [← bind_def, Run.bind, h]
    | error e => rfl)

section

variable {x : Run α β} {f : β → Run α γ}

theorem outcome_bind_of_ok {b : β} (h : x.outcome = .ok b) :
    (x >>= f).outcome = (f b).outcome := by
  rw [← bind_def, Run.bind, h]

theorem outcome_bind_of_error {e : Fault} (h : x.outcome = .error e) :
    (x >>= f).outcome = .error e := by
  rw [← bind_def, Run.bind, h]

theorem diagnostics_bind_of_ok {b : β} (h : x.outcome = .ok b) :
    (x >>= f).diagnostics = x.diagnostics ++ (f b).diagnostics := by
  rw [← bind_def, Run.bind, h]

theorem diagnostics_bind_of_error {e : Fault} (h : x.outcome = .error e) :
    (x >>= f).diagnostics = x.diagnostics := by
  rw [← bind_def, Run.bind, h]

/-- A run notes nothing when its parts note nothing. -/
theorem diagnostics_bind_eq_nil (hx : x.diagnostics = []) (hf : ∀ b, (f b).diagnostics = []) :
    (x >>= f).diagnostics = [] := by
  cases h : x.outcome with
  | ok b => rw [diagnostics_bind_of_ok h, hx, hf b]; rfl
  | error e => rw [diagnostics_bind_of_error h, hx]

/-- What follows silently adds nothing to the diagnostics. -/
theorem diagnostics_bind_of_silent (hf : ∀ b, (f b).diagnostics = []) :
    (x >>= f).diagnostics = x.diagnostics := by
  cases h : x.outcome with
  | ok b => rw [diagnostics_bind_of_ok h, hf b, List.append_nil]
  | error e => rw [diagnostics_bind_of_error h]

theorem outcome_bind_eq_ok_iff {c : γ} :
    (x >>= f).outcome = .ok c ↔ ∃ b, x.outcome = .ok b ∧ (f b).outcome = .ok c := by
  cases h : x.outcome with
  | ok b => rw [outcome_bind_of_ok h]; simp
  | error e => rw [outcome_bind_of_error h]; simp

theorem outcome_bind_eq_error_iff {e : Fault} :
    (x >>= f).outcome = .error e ↔
      x.outcome = .error e ∨ ∃ b, x.outcome = .ok b ∧ (f b).outcome = .error e := by
  cases h : x.outcome with
  | ok b => rw [outcome_bind_of_ok h]; simp
  | error e' => rw [outcome_bind_of_error h]; simp

end

theorem outcome_eq_ok_of_isOk {x : Run α Unit} (h : x.outcome.isOk) : x.outcome = .ok () := by
  cases hx : x.outcome with
  | ok u => rfl
  | error e => rw [hx] at h; cases h

/-! ## Runs that return -/

/-- The run ends with a value and notes these diagnostics. -/
structure Returns (x : Run α β) (b : β) (ds : List Diagnostic) : Prop where
  outcome_eq : x.outcome = .ok b
  diagnostics_eq : x.diagnostics = ds

theorem returns_pure_iff {b c : β} {ds : List Diagnostic} :
    Returns (pure b : Run α β) c ds ↔ c = b ∧ ds = [] := by
  constructor
  · rintro ⟨h, h'⟩
    cases h
    exact ⟨rfl, h'.symm⟩
  · rintro ⟨rfl, rfl⟩
    exact ⟨rfl, rfl⟩

theorem returns_bind_iff {x : Run α β} {f : β → Run α γ} {c : γ} {ds : List Diagnostic} :
    Returns (x >>= f) c ds ↔
      ∃ b ds₁ ds₂, Returns x b ds₁ ∧ Returns (f b) c ds₂ ∧ ds = ds₁ ++ ds₂ := by
  constructor
  · rintro ⟨h, rfl⟩
    obtain ⟨b, hb, hc⟩ := outcome_bind_eq_ok_iff.mp h
    exact ⟨b, _, _, ⟨hb, rfl⟩, ⟨hc, rfl⟩, diagnostics_bind_of_ok hb⟩
  · rintro ⟨b, _, _, ⟨hb, rfl⟩, ⟨hc, rfl⟩, rfl⟩
    exact ⟨outcome_bind_eq_ok_iff.mpr ⟨b, hb, hc⟩, diagnostics_bind_of_ok hb⟩

/-- What is told among the events changes neither the value nor the diagnostics. -/
theorem returns_tell_bind_iff {event : Event α} {x : Run α β} {b : β} {ds : List Diagnostic} :
    Returns (tell event >>= fun _ => x) b ds ↔ Returns x b ds :=
  ⟨fun h => ⟨h.outcome_eq, h.diagnostics_eq⟩, fun h => ⟨h.outcome_eq, h.diagnostics_eq⟩⟩

/-! ## Runs that fail -/

/-- The run ends early. -/
def Fails (x : Run α β) : Prop :=
  ∃ fault, x.outcome = .error fault

theorem not_fails_of_ok {x : Run α β} {b : β} (h : x.outcome = .ok b) : ¬Fails x := by
  rintro ⟨fault, hfault⟩
  rw [h] at hfault
  cases hfault

theorem fails_or_ok (x : Run α β) : Fails x ∨ ∃ b, x.outcome = .ok b := by
  cases h : x.outcome with
  | ok b => exact .inr ⟨b, rfl⟩
  | error fault => exact .inl ⟨fault, h⟩

theorem fails_bind_iff {x : Run α β} {f : β → Run α γ} :
    Fails (x >>= f) ↔ Fails x ∨ ∃ b, x.outcome = .ok b ∧ Fails (f b) := by
  constructor
  · rintro ⟨fault, h⟩
    rcases outcome_bind_eq_error_iff.mp h with h | ⟨b, hb, h⟩
    · exact .inl ⟨fault, h⟩
    · exact .inr ⟨b, hb, fault, h⟩
  · rintro (⟨fault, h⟩ | ⟨b, hb, fault, h⟩)
    · exact ⟨fault, outcome_bind_eq_error_iff.mpr (.inl h)⟩
    · exact ⟨fault, outcome_bind_eq_error_iff.mpr (.inr ⟨b, hb, h⟩)⟩

/-- A run that cannot fail later fails where its first part does. -/
theorem fails_bind_iff_left {x : Run α β} {f : β → Run α γ} (hf : ∀ b, ¬Fails (f b)) :
    Fails (x >>= f) ↔ Fails x := by
  rw [fails_bind_iff]
  refine or_iff_left ?_
  rintro ⟨b, -, h⟩
  exact hf b h

theorem not_fails_bind {x : Run α β} {f : β → Run α γ} (hx : ¬Fails x) (hf : ∀ b, ¬Fails (f b)) :
    ¬Fails (x >>= f) := by
  rw [fails_bind_iff_left hf]
  exact hx

theorem not_fails_pure (b : β) : ¬Fails (pure b : Run α β) :=
  not_fails_of_ok rfl

/-- What is told among the events does not make a run fail. -/
theorem fails_tell_bind_iff {event : Event α} {x : Run α β} :
    Fails (tell event >>= fun _ => x) ↔ Fails x :=
  ⟨fun ⟨fault, h⟩ => ⟨fault, h⟩, fun ⟨fault, h⟩ => ⟨fault, h⟩⟩

theorem fails_ofArithmetic_iff {x : Except ArithmeticFault β} :
    Fails (ofArithmetic x : Run α β) ↔ ¬x.isOk := by
  cases x with
  | ok b => exact ⟨fun h => (not_fails_of_ok rfl h).elim, fun h => absurd rfl h⟩
  | error e => exact ⟨fun _ h => (by cases h), fun _ => ⟨_, rfl⟩⟩

end Run

/-- What is rejected is no color. -/
theorem Context.reject_ne_ok {α : Type} (ctx : Context α) (node : Node) (word : String)
    (complaint : Complaint) (c : Color α) :
    (ctx.reject node word complaint).outcome ≠ .ok (.ok c) := by
  intro h
  obtain ⟨u, -, hu⟩ := Run.outcome_bind_eq_ok_iff.mp h
  cases hu

end ColorMod
