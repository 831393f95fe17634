import ColorMod.Stylesheet
import ColorMod.Proofs.Calls
import ColorMod.Proofs.Expansion
import ColorMod.Proofs.Walks

/-!
# Doing it again changes nothing

A `var` call that a substitution leaves stands for nothing, or its expansion comes back to a name.
Neither depends on the place where the call ends up, so a second substitution leaves it too.  A walk
leaves words, which are no calls, and the calls that it could not resolve.

* `substitute_substitute`, `kept_substitute`: substitution once and twice.
* `walk_repeats`: a walk once and twice.
* `transform_idempotent`: both together.
-/

namespace ColorMod

open Node Run

/-! ## Substitution -/

section

variable {props : Properties}

/-- None of the calls could be expanded. -/
def Kept (props : Properties) (ns : List Node) : Prop :=
  ∀ call ∈ variablesAmong ns, expansion props call = [call]

theorem kept_singleton {n : Node} (hn : n.isVariable) (h : expansion props n = [n]) :
    Kept props [n] := by
  intro call hcall
  rw [variablesAmong_of_isVariable hn, List.mem_singleton] at hcall
  rw [hcall, h]

theorem Kept.append {ns ms : List Node} (hns : Kept props ns) (hms : Kept props ms) :
    Kept props (ns ++ ms) := by
  intro call hcall
  rw [variablesAmong_append, List.mem_append] at hcall
  exact hcall.elim (hns call) (hms call)

/-- What a call becomes holds no call that could be expanded: either the expansion has come to its
end, or the call stays and no names were being expanded. -/
theorem kept_orKeep {call : Node} {seen : List String} {expanded : Substituted}
    (hcall : call.isVariable) (hkept : expanded.2 → Kept props expanded.1)
    (hroot : seen = [] → expansion props call = (expanded.orKeep call).1)
    (h : (expanded.orKeep call).2 ∨ seen = []) : Kept props (expanded.orKeep call).1 := by
  by_cases hok : expanded.2
  · obtain ⟨nodes, ok⟩ := expanded
    cases hok
    exact fun c hc => hkept rfl c (variablesAmong_trimSpaces_subset nodes hc)
  · rw [Substituted.orKeep_snd] at h
    rw [Substituted.orKeep_of_not_ok call hok] at hroot ⊢
    exact kept_singleton hcall (hroot (h.resolve_left hok))

/-- A substitution that comes to its end, or begins with no names, leaves no call that could be
expanded. -/
theorem kept_substitute_aux (props : Properties) :
    (∀ (seen : List String) (n : Node), (substituteNode props seen n).2 ∨ seen = [] →
      Kept props (substituteNode props seen n).1) ∧
    ∀ (seen : List String) (ns : List Node), (substituteAll props seen ns).2 ∨ seen = [] →
      Kept props (substituteAll props seen ns).1 := by
  refine substitute_induction props ?stuck ?seen ?source ?leaf ?branch ?nil ?cons
  case stuck =>
    intro seen call hcall hsource hseen _
    rw [substituteNode_of_stuck hcall hsource hseen]
    exact kept_singleton hcall (expansion_of_stuck hcall hsource)
  case seen =>
    intro seen call name hcall hname hseen h
    rw [substituteNode_of_seen hcall hname hseen] at h
    simp [List.ne_nil_of_mem hseen] at h
  case source =>
    intro seen call name nodes hcall hname hseen hsource ih
    rw [substituteNode_of_source hcall hname hseen hsource]
    refine kept_orKeep hcall (fun h => ih (.inl h)) ?_
    rintro rfl
    exact expansion_of_source hcall hname hsource
  case leaf =>
    intro seen h hn _
    rw [substituteNode_leaf hn]
    intro call hcall
    rw [variablesAmong_leaf hn] at hcall
    cases hcall
  case branch =>
    intro seen h cs hn ih hok
    rw [substituteNode_branch hn] at hok ⊢
    intro call hcall
    rw [variablesAmong_branch hn] at hcall
    exact ih hok call hcall
  case nil =>
    intro seen _
    rw [substituteAll]
    intro call hcall
    cases hcall
  case cons =>
    intro seen n ns ihn ihns h
    rw [substituteAll_cons] at h ⊢
    rw [Bool.and_eq_true, and_or_right] at h
    exact (ihn h.1).append (ihns h.2)

/-- The calls that a substitution leaves would stay again. -/
theorem kept_substitute (props : Properties) (tree : Node) :
    ∀ call ∈ (substitute props tree).variablesBelow, expansion props call = [call] := by
  rw [variablesBelow_eq, children_substitute]
  exact (kept_substitute_aux props).2 [] tree.children (.inr rfl)

theorem substitute_substitute (props : Properties) (tree : Node) :
    substitute props (substitute props tree) = substitute props tree := by
  rw [substitute_eq_splice props (substitute props tree)]
  exact splice_eq_self _ (kept_substitute props tree)

end

/-! ## Walks -/

/-- A walk over what a walk has left ends like it and changes nothing. -/
structure Walked.Repeats {α β : Type} (f : β → Walked α β) (b : β) : Prop where
  result_eq : (f (f b).result).result = (f b).result
  outcome_eq : (f (f b).result).run.outcome = (f b).run.outcome

namespace Walked

variable {α β : Type} {f : β → Walked α β}

theorem Repeats.of_eq {b : β} (h : (f b).result = b) : Repeats f b where
  result_eq := congrArg (fun b => (f b).result) h
  outcome_eq := congrArg (fun b => (f b).run.outcome) h

/-- Things walked over again one after the other. -/
theorem repeats_each {bs : List β} (h : ∀ b ∈ bs, Repeats f b) : Repeats (each f) bs := by
  induction bs with
  | nil => exact .of_eq rfl
  | cons b bs ih =>
    obtain ⟨hb, hbs⟩ := List.forall_mem_cons.mp h
    cases hfirst : (f b).run.outcome with
    | ok u =>
      have hagain := hb.outcome_eq.trans hfirst
      have hresult : (each f (b :: bs)).result = (f b).result :: (each f bs).result :=
        cons_result_of_ok hfirst
      constructor
      · rw [hresult, each, cons_result_of_ok hagain, hb.result_eq, (ih hbs).result_eq]
      · rw [hresult, each, each, cons_run, cons_run, outcome_bind_of_ok hagain,
          outcome_bind_of_ok hfirst, (ih hbs).outcome_eq]
    | error e =>
      have hagain := hb.outcome_eq.trans hfirst
      have hresult : (each f (b :: bs)).result = (f b).result :: bs :=
        cons_result_of_error hfirst
      constructor
      · rw [hresult, each, cons_result_of_error hagain, hb.result_eq]
      · rw [hresult, each, each, cons_run, cons_run, outcome_bind_of_error hagain,
          outcome_bind_of_error hfirst]

/-- A walk over nodes leaves no calls but those that it leaves of each. -/
theorem callsAmong_each_subset {f : Node → Walked α Node} {cs : List Node}
    (h : ∀ c ∈ cs, callsAmong [(f c).result] ⊆ callsAmong [c]) :
    callsAmong (each f cs).result ⊆ callsAmong cs := by
  induction cs with
  | nil => exact List.Subset.refl _
  | cons c cs ih =>
    obtain ⟨hc, hcs⟩ := List.forall_mem_cons.mp h
    have hrest : ∃ rest, (each f (c :: cs)).result = (f c).result :: rest ∧
        callsAmong rest ⊆ callsAmong cs := by
      cases hfirst : (f c).run.outcome with
      | ok u => exact ⟨_, cons_result_of_ok hfirst, ih hcs⟩
      | error e => exact ⟨_, cons_result_of_error hfirst, List.Subset.refl _⟩
    obtain ⟨rest, hresult, hrest⟩ := hrest
    rw [hresult, callsAmong_cons, callsAmong_cons c]
    exact List.append_subset.mpr ⟨List.subset_append_of_subset_left _ hc,
      List.subset_append_of_subset_right _ hrest⟩

end Walked

variable {α : Type} [Scalar α] [LightCurve α] {ctx : Context α}

/-- A call is a call by what it says. -/
theorem isCall_walk (n : Node) (ctx : Context α) : (walk n ctx).result.isCall = n.isCall := by
  simp only [isCall, isFunctionNamed, isFunction, Node.name, kind, value, head_walk]

theorem isEmpty_children_walk (n : Node) (ctx : Context α) :
    (walk n ctx).result.children.isEmpty = n.children.isEmpty := by
  rw [Bool.eq_iff_iff, List.isEmpty_iff_length_eq_zero, List.isEmpty_iff_length_eq_zero,
    length_children_walk]

/-- A word in the place of a call is no call, and a call that stays comes to the same end again. -/
theorem repeats_walkChild {c : Node} (hc : Walked.Repeats (fun n => walk n ctx.descend) c) :
    Walked.Repeats (walkChild ctx) c := by
  by_cases hcall : c.isCall
  · have hchild : walkChild ctx c = walkCall c ctx := by rw [walkChild, if_pos hcall]
    rcases walkCall_result c ctx with hsame | ⟨hok, text, htext⟩
    · exact .of_eq (hchild ▸ hsame)
    · constructor <;> rw [hchild, htext]
      · rfl
      · exact hok.symm
  · by_cases hempty : c.children.isEmpty
    · exact .of_eq (by rw [walkChild, if_neg hcall, if_pos hempty])
    · have hchild : walkChild ctx c = walk c ctx.descend := by
        rw [walkChild, if_neg hcall, if_neg hempty]
      have hagain : walkChild ctx (walk c ctx.descend).result =
          walk (walk c ctx.descend).result ctx.descend := by
        rw [walkChild, isCall_walk, isEmpty_children_walk, if_neg hcall, if_neg hempty]
      constructor <;> rw [hchild, hagain]
      · exact hc.result_eq
      · exact hc.outcome_eq

/-- A walk over what a walk has left ends like it and changes nothing. -/
theorem walk_repeats (n : Node) : ∀ ctx : Context α, Walked.Repeats (fun n => walk n ctx) n := by
  induction n using Node.induction_on_children with
  | step n ih =>
    intro ctx
    by_cases hdeep : ctx.tooDeep
    · exact .of_eq (by rw [walk_of_tooDeep ctx n hdeep])
    cases n with
    | leaf h => exact .of_eq (by rw [walk_leaf ctx h hdeep])
    | branch h cs =>
      have heach := Walked.repeats_each fun c hc => repeats_walkChild (ih c hc ctx.descend)
      have hbranch : ∀ ds, walk (branch h ds) ctx =
          ⟨branch h (Walked.each (walkChild ctx) ds).result,
            (Walked.each (walkChild ctx) ds).run⟩ := by
        intro ds
        rw [walk_branch ctx h ds hdeep, walkAll_eq_each]
      constructor <;> simp only [hbranch]
      · exact congrArg (branch h) heach.result_eq
      · exact heach.outcome_eq

/-! ## The calls that a walk leaves -/

theorem callsAmong_walkChild_subset {c : Node}
    (hc : (walk c ctx.descend).result.callsBelow ⊆ c.callsBelow) :
    callsAmong [(walkChild ctx c).result] ⊆ callsAmong [c] := by
  by_cases hcall : c.isCall
  · have hchild : walkChild ctx c = walkCall c ctx := by rw [walkChild, if_pos hcall]
    rcases walkCall_result c ctx with hsame | ⟨-, text, htext⟩
    · rw [hchild, hsame]
      exact List.Subset.refl _
    · rw [hchild, htext]
      exact List.nil_subset _
  · by_cases hempty : c.children.isEmpty
    · rw [walkChild, if_neg hcall, if_pos hempty]
      exact List.Subset.refl _
    · rw [walkChild, if_neg hcall, if_neg hempty]
      simpa [callsAmong, isCall_walk, hcall] using hc

/-- The calls that a walk leaves have been there before. -/
theorem callsBelow_walk_subset (n : Node) : ∀ ctx : Context α,
    (walk n ctx).result.callsBelow ⊆ n.callsBelow := by
  induction n using Node.induction_on_children with
  | step n ih =>
    intro ctx
    by_cases hdeep : ctx.tooDeep
    · rw [walk_of_tooDeep ctx n hdeep]
      exact List.Subset.refl _
    cases n with
    | leaf h =>
      rw [walk_leaf ctx h hdeep]
      exact List.Subset.refl _
    | branch h cs =>
      rw [walk_branch ctx h cs hdeep, walkAll_eq_each]
      exact Walked.callsAmong_each_subset fun c hc =>
        callsAmong_walkChild_subset (ih c hc ctx.descend)

/-! ## Values -/

/-- Transforming a value that has been transformed changes nothing and ends in the same way,
whatever the policy and the properties.  The same is true of a substitution alone, and each call
that it leaves would stay again. -/
theorem transform_idempotent (tree : Node) (ctx : Context α) (props : Properties) :
    let once := transform tree ctx props
    let twice := transform once.result ctx props
    twice.result = once.result ∧ twice.run.outcome = once.run.outcome ∧
    substitute props (substitute props tree) = substitute props tree ∧
    ∀ call ∈ (substitute props tree).variablesBelow,
      (substituteNode props [] call).1 = [call] := by
  intro once twice
  -- what the first transformation leaves holds no variable that the second one would replace
  have hvalue : (if props.isEmpty then once.result
      else once.result.mapCalls (substitute props)) = once.result := by
    split
    · rfl
    · next hprops =>
      have hcalls : ∀ call ∈ once.result.callsBelow, substitute props call = id call := by
        intro call hcall
        have hbefore := callsBelow_walk_subset _ ctx hcall
        rw [if_neg hprops, callsBelow_mapCalls (isCall_substitute props)] at hbefore
        obtain ⟨c, -, rfl⟩ := List.mem_map.mp hbefore
        exact substitute_substitute props c
      rw [mapCalls_congr _ hcalls, mapCalls_id]
  have htwice : twice = walk once.result ctx := congrArg (fun value => walk value ctx) hvalue
  have hrepeats :=
    walk_repeats (if props.isEmpty then tree else tree.mapCalls (substitute props)) ctx
  rw [htwice]
  exact ⟨hrepeats.result_eq, hrepeats.outcome_eq, substitute_substitute props tree,
    kept_substitute props tree⟩

end ColorMod
