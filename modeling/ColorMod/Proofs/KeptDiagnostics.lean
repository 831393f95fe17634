import ColorMod.Proofs.Processing
import ColorMod.Proofs.TransformFaults
import Mathlib.Data.List.Flatten

/-!
# The diagnostics that a processor keeps

The complaints of a run are noted in the context of the run, and its processor takes them over at
the end.  A run that is cut short may have noted something too, on its way to the fault, and that is
lost.

* `process_cases`, `process_processor`: what one run does to its processor.
* `reported_of_ok`, `reported_of_cutShort`: what is reported during a run, in both ways to end it.
* `cutShort_iff`: which runs are cut short when complaints are no faults.
* `after_eq`, `flatMap_kept_eq_iff`: what is there after any number of runs, and when that is all of
  what they have reported.
-/

namespace ColorMod

/-- A walk with a fault has noted what is noted at each thing up to the one with the fault, this one
included. -/
theorem Walked.diagnostics_of_each_error {α β : Type} {f : β → Walked α β} {bs : List β} {e : Fault}
    (h : (each f bs).run.outcome = .error e) :
    ∃ as b cs, bs = as ++ b :: cs ∧ (∀ a ∈ as, (f a).run.outcome = .ok ()) ∧
      (f b).run.outcome = .error e ∧
      (each f bs).run.diagnostics = (as ++ [b]).flatMap fun b => (f b).run.diagnostics := by
  induction bs with
  | nil => cases h
  | cons b bs ih =>
    rw [each, cons_run] at h ⊢
    cases hb : (f b).run.outcome with
    | error e' =>
      rw [Run.outcome_bind_of_error hb] at h
      refine ⟨[], b, bs, rfl, by simp, hb.trans h, ?_⟩
      rw [Run.diagnostics_bind_of_error hb]
      simp
    | ok u =>
      rw [Run.outcome_bind_of_ok hb] at h
      obtain ⟨as, c, cs, hsplit, hbefore, hfault, hdiagnostics⟩ := ih h
      refine ⟨b :: as, c, cs, by rw [hsplit, List.cons_append],
        List.forall_mem_cons.mpr ⟨hb, hbefore⟩, hfault, ?_⟩
      rw [Run.diagnostics_bind_of_ok hb, hdiagnostics, List.cons_append, List.flatMap_cons]

namespace Processor

/-! ## One run -/

/-- The diagnostics reported during a run, wherever it ends. -/
def reported (p : Processor) (ds : List Declaration) : List Diagnostic :=
  match Context.build p.options.toChoices p.settings with
  | .error _ => []
  | .ok ctx => (transformAll ctx (p.properties ds) ds).run.diagnostics

/-- A run does not come to its end. -/
def CutShort (p : Processor) (ds : List Declaration) : Prop :=
  ∃ fault, (p.process ds).outcome = .error fault

/-- The diagnostics of a run that its processor has after it. -/
def kept (p : Processor) (ds : List Declaration) : List Diagnostic :=
  match (p.process ds).outcome with
  | .ok _ => p.reported ds
  | .error _ => []

section

variable {p : Processor} {ctx : Context Float} {ds : List Declaration}

theorem reported_of_build (hctx : Context.build p.options.toChoices p.settings = .ok ctx)
    (ds : List Declaration) : p.reported ds =
      (Walked.each (transformDeclaration ctx (p.properties ds)) ds).run.diagnostics := by
  rw [reported, hctx, ← transformAll_eq_each]

theorem cutShort_iff_ne : p.CutShort ds ↔ (p.process ds).outcome ≠ .ok () := by
  rw [CutShort]
  cases (p.process ds).outcome <;> simp

theorem kept_of_cutShort (h : p.CutShort ds) : p.kept ds = [] := by
  obtain ⟨fault, h⟩ := h
  rw [kept, h]

theorem kept_of_not_cutShort (h : ¬p.CutShort ds) : p.kept ds = p.reported ds := by
  cases houtcome : (p.process ds).outcome with
  | ok u => rw [kept, houtcome]
  | error fault => exact absurd ⟨fault, houtcome⟩ h

/-- A run of a processor with a context comes to its end and adds what it has reported, or it comes
to a fault and leaves the processor as it was. -/
theorem process_cases (hctx : Context.build p.options.toChoices p.settings = .ok ctx)
    (ds : List Declaration) :
    ((p.process ds).outcome = .ok () ∧
      (p.process ds).processor = { p with diagnostics := p.diagnostics ++ p.reported ds }) ∨
    ∃ f, (p.process ds).outcome = .error (.fault f) ∧ (p.process ds).processor = p ∧
      (Walked.each (transformDeclaration ctx (p.properties ds)) ds).run.outcome = .error f := by
  rw [process_of_build hctx, reported_of_build hctx]
  dsimp only
  split
  · exact .inl ⟨rfl, rfl⟩
  · next f h => exact .inr ⟨f, rfl, rfl, h⟩

/-- A run changes nothing of its processor but the diagnostics, and these only at its end. -/
theorem process_processor (p : Processor) (ds : List Declaration) :
    (p.process ds).processor = { p with diagnostics := p.diagnostics ++ p.kept ds } := by
  cases hctx : Context.build p.options.toChoices p.settings with
  | error e => simp only [kept, process, hctx, List.append_nil]
  | ok ctx =>
    rcases process_cases hctx ds with ⟨hok, hprocessor⟩ | ⟨f, hfault, hprocessor, -⟩
    · rw [hprocessor, kept, hok]
    · rw [hprocessor, kept, hfault, List.append_nil]

/-- During a run that comes to its end each value reports what its own transformation notes. -/
theorem reported_of_ok (hctx : Context.build p.options.toChoices p.settings = .ok ctx)
    (hok : (p.process ds).outcome = .ok ()) :
    p.reported ds = ds.flatMap fun d =>
      (transformDeclaration ctx (p.properties ds) d).run.diagnostics := by
  rw [reported_of_build hctx]
  exact Walked.diagnostics_of_each
    (Walked.outcome_each_iff.mpr ((process_outcome_iff hctx).mp hok))

/-- During a run that is cut short the values up to the one with the fault report what theirs
note. -/
theorem reported_of_cutShort (hctx : Context.build p.options.toChoices p.settings = .ok ctx)
    (h : p.CutShort ds) :
    ∃ before d later, ds = before ++ d :: later ∧
      (∀ d ∈ before, (transformDeclaration ctx (p.properties ds) d).run.outcome = .ok ()) ∧
      (∃ f, (transformDeclaration ctx (p.properties ds) d).run.outcome = .error f) ∧
      p.reported ds = (before ++ [d]).flatMap fun d =>
        (transformDeclaration ctx (p.properties ds) d).run.diagnostics := by
  rcases process_cases hctx ds with ⟨hok, -⟩ | ⟨f, -, -, hwalk⟩
  · exact absurd hok (cutShort_iff_ne.mp h)
  · obtain ⟨before, d, later, hsplit, hbefore, hfault, hdiagnostics⟩ :=
      Walked.diagnostics_of_each_error hwalk
    exact ⟨before, d, later, hsplit, hbefore, ⟨f, hfault⟩,
      (reported_of_build hctx ds).trans hdiagnostics⟩

/-- When complaints are no faults, a run is cut short just when one of its values comes to a call
that breaks or whose color cannot be converted for the format. -/
theorem cutShort_iff (hctx : Context.build p.options.toChoices p.settings = .ok ctx)
    (hpolicy : ctx.policy ≠ .raise) (hcutoff : ctx.CutoffInRange) :
    p.CutShort ds ↔ ∃ d ∈ ds, d.2.hasCall ∧
      ∃ r ∈ (if (p.properties ds).isEmpty then d.2
        else d.2.mapCalls (substitute (p.properties ds))).callsReached ctx, r.1.Faults r.2 := by
  have hdeclaration : ∀ d : Declaration,
      (transformDeclaration ctx (p.properties ds) d).run.outcome ≠ .ok () ↔ d.2.hasCall ∧
        ∃ r ∈ (if (p.properties ds).isEmpty then d.2
          else d.2.mapCalls (substitute (p.properties ds))).callsReached ctx, r.1.Faults r.2 := by
    intro d
    obtain ⟨hfails, -⟩ := transform_fails_iff d.2 ctx (p.properties ds) hpolicy hcutoff
    rw [← hfails, transformDeclaration]
    by_cases hcall : d.2.hasCall
    · rw [if_pos hcall]
      cases (transform d.2 ctx (p.properties ds)).run.outcome <;> simp [hcall]
    · rw [if_neg hcall]
      exact iff_of_false (fun h => h rfl) fun h => hcall h.1
  rw [cutShort_iff_ne, ne_eq, process_outcome_iff hctx]
  simp only [not_forall, exists_prop, hdeclaration]

end

/-! ## Many runs -/

/-- The processor after one run after the other. -/
def after (p : Processor) (runs : List (List Declaration)) : Processor :=
  runs.foldl (fun p ds => (p.process ds).processor) p

theorem kept_fresh (p : Processor) (ds : List Declaration) : p.fresh.kept ds = p.kept ds := by
  rw [kept, kept, process_eq_fresh p]
  rfl

/-- What a run keeps does not depend on the runs before it. -/
theorem kept_process (p : Processor) (ds ds' : List Declaration) :
    (p.process ds).processor.kept ds' = p.kept ds' := by
  have hfresh : (p.process ds).processor.fresh = p.fresh := by
    rw [process_eq_fresh]
    rfl
  rw [← kept_fresh, hfresh, kept_fresh]

/-- After any runs a processor has the diagnostics of those that came to their end, in order. -/
theorem after_eq (p : Processor) (runs : List (List Declaration)) :
    p.after runs = { p with diagnostics := p.diagnostics ++ runs.flatMap p.kept } := by
  induction runs generalizing p with
  | nil => simp [after]
  | cons ds runs ih =>
    have hkept : (p.process ds).processor.kept = p.kept := funext (kept_process p ds)
    have hstep : p.after (ds :: runs) = (p.process ds).processor.after runs := rfl
    rw [hstep, ih, hkept, process_processor, List.flatMap_cons, List.append_assoc]

theorem kept_sublist (p : Processor) (ds : List Declaration) :
    (p.kept ds).Sublist (p.reported ds) := by
  by_cases h : p.CutShort ds
  · rw [kept_of_cutShort h]
    exact List.nil_sublist _
  · rw [kept_of_not_cutShort h]

/-- All of what is reported is kept just when the runs that are cut short have nothing to report. -/
theorem flatMap_kept_eq_iff (p : Processor) (runs : List (List Declaration)) :
    runs.flatMap p.kept = runs.flatMap p.reported ↔
      ∀ ds ∈ runs, p.CutShort ds → p.reported ds = [] := by
  induction runs with
  | nil => simp
  | cons ds runs ih =>
    rw [List.flatMap_cons, List.flatMap_cons, List.forall_mem_cons, ← ih]
    by_cases hcut : p.CutShort ds
    · rw [kept_of_cutShort hcut, List.nil_append]
      constructor
      · intro heq
        -- Later runs cannot make up for what is lost: they keep no more than they report.
        have hlength := (List.Sublist.flatMap_right runs fun ds _ => p.kept_sublist ds).length_le
        rw [heq, List.length_append] at hlength
        have hnone : p.reported ds = [] := List.length_eq_zero_iff.mp (by omega)
        rw [hnone, List.nil_append] at heq
        exact ⟨fun _ => hnone, heq⟩
      · rintro ⟨hnone, heq⟩
        rw [hnone hcut, List.nil_append, heq]
    · rw [kept_of_not_cutShort hcut, List.append_cancel_left_eq]
      exact ⟨fun heq => ⟨fun h => absurd h hcut, heq⟩, fun h => h.2⟩

/-- Whatever runs a processor makes, it comes out of them with its options and settings and with the
diagnostics that it had, followed by those of the runs that came to their end, in order.  So it has
all that was reported, nothing lost and nothing twice, just when no run reported anything before it
was cut short.  A run reports what its values note, up to the one that cuts it short.  With the
policy `warn` this is a value with a call that breaks or whose color cannot be converted for the
format. -/
theorem diagnostics_after_iff (p : Processor) (runs : List (List Declaration)) :
    p.after runs = { p with diagnostics := p.diagnostics ++ runs.flatMap p.kept } ∧
    ((p.after runs).diagnostics = p.diagnostics ++ runs.flatMap p.reported ↔
      ∀ ds ∈ runs, p.CutShort ds → p.reported ds = []) ∧
    ∀ ctx, Context.build p.options.toChoices p.settings = .ok ctx → ∀ ds,
      let props := p.properties ds
      let own : Declaration → Run Float Unit := fun d => (transformDeclaration ctx props d).run
      (¬p.CutShort ds → p.reported ds = ds.flatMap fun d => (own d).diagnostics) ∧
      (p.CutShort ds → ∃ before d later, ds = before ++ d :: later ∧
        (∀ d ∈ before, (own d).outcome = .ok ()) ∧ (∃ f, (own d).outcome = .error f) ∧
        p.reported ds = (before ++ [d]).flatMap fun d => (own d).diagnostics) ∧
      (ctx.policy = .warn → ctx.CutoffInRange → (p.CutShort ds ↔ ∃ d ∈ ds, d.2.hasCall ∧
        ∃ r ∈ (if props.isEmpty then d.2 else d.2.mapCalls (substitute props)).callsReached ctx,
          r.1.Faults r.2)) := by
  refine ⟨after_eq p runs, ?_, fun ctx hctx ds => ⟨fun hends => ?_, ?_, fun hwarn hcutoff => ?_⟩⟩
  · rw [after_eq, List.append_cancel_left_eq]
    exact flatMap_kept_eq_iff p runs
  · exact reported_of_ok hctx (not_not.mp (cutShort_iff_ne.not.mp hends))
  · exact reported_of_cutShort hctx
  · exact cutShort_iff hctx (by rw [hwarn]; decide) hcutoff

/-- A processor that notes complaints and writes hsl. -/
def noting : Processor :=
  { options := { policy := some "warn", format := some "hsl" }, settings := {} }

def notingContext : Context Float :=
  { policy := .warn, format := .hsl, maxDepth := 64, cutoff := 75 }

/-- `color: color-mod(nope) color-mod(rgb(0 0 1e-15))` -/
def nopeBeforeNearlyBlack : List Declaration :=
  [("color", .root [.function colorModName [.word "nope"],
    .function colorModName [.function "rgb" [.number "0", .number "0", .number "1e-15"]]])]

/-- `nope` is reported twice, as no color and for the call that has no other.  The call after it
divides by zero, and the processor knows of nothing. -/
theorem diagnostics_after_iff_nearlyBlack :
    (noting.after [nopeBeforeNearlyBlack]).diagnostics = [] ∧
    (noting.reported nopeBeforeNearlyBlack).map (fun d => (d.complaint.message, d.word)) =
      [("Expected a color", "nope"), ("Expected a valid color", "color-mod(nope)")] ∧
    (noting.after [nopeBeforeNearlyBlack]).diagnostics ≠
      noting.diagnostics ++ [nopeBeforeNearlyBlack].flatMap noting.reported ∧
    ∃ d ∈ nopeBeforeNearlyBlack, ∃ r ∈ d.2.callsReached notingContext, r.1.Faults r.2 := by
  obtain ⟨hafter, hiff, hall⟩ := diagnostics_after_iff noting [nopeBeforeNearlyBlack]
  have hctx : Context.build noting.options.toChoices noting.settings = .ok notingContext := rfl
  obtain ⟨-, -, hcutShort⟩ := hall notingContext hctx nopeBeforeNearlyBlack
  have hcut : noting.CutShort nopeBeforeNearlyBlack := by
    have hok : (noting.process nopeBeforeNearlyBlack).outcome.isOk = false := by decide +kernel
    refine cutShort_iff_ne.mpr fun h => ?_
    rw [h] at hok
    cases hok
  have hcutoff : notingContext.CutoffInRange := by
    unfold Context.CutoffInRange
    decide +kernel
  have hreported : (noting.reported nopeBeforeNearlyBlack).map
      (fun d => (d.complaint.message, d.word)) =
        [("Expected a color", "nope"), ("Expected a valid color", "color-mod(nope)")] := by
    decide +kernel
  obtain ⟨d, hd, -, r, hr, hfaults⟩ := (hcutShort rfl hcutoff).mp hcut
  refine ⟨?_, hreported, fun heq => ?_, d, hd, r, hr, hfaults⟩
  · rw [hafter, List.flatMap_singleton, kept_of_cutShort hcut]
    rfl
  · rw [hiff.mp heq nopeBeforeNearlyBlack (List.mem_singleton.mpr rfl) hcut] at hreported
    cases hreported

end Processor

end ColorMod
