import ColorMod.Walk
import ColorMod.Proofs.Runs

/-!
# Walking over one thing after the other

A walk over several things goes on from one to the next until a fault, and what comes after the
fault stays as it was.  The walk over the children of a node is of this kind (`walkAll_eq_each`).

* `Walked.cons_run`, `Walked.cons_result_of_ok`, `Walked.cons_result_of_error`: a thing and the ones
  after it.
* `Walked.each`: things walked over one after the other, with the lemmas for lists put together.
* `walk_of_tooDeep`, `walk_leaf`, `walk_branch`: the walk over one node.
-/

namespace ColorMod

open Run

/-! ## A thing and the ones after it -/

namespace Walked

section

variable {α β : Type} {first : Walked α β} {others : List β} {rest : Unit → Walked α (List β)}

theorem cons_run : (first.cons others rest).run = first.run >>= fun _ => (rest ()).run := by
  rw [← bind_def, Run.bind, Walked.cons]
  obtain ⟨result, outcome, diagnostics, events⟩ := first
  cases outcome <;> rfl

theorem cons_result_of_ok {u : Unit} (h : first.run.outcome = .ok u) :
    (first.cons others rest).result = first.result :: (rest ()).result := by
  rw [Walked.cons, h]

theorem cons_result_of_error {e : Fault} (h : first.run.outcome = .error e) :
    (first.cons others rest).result = first.result :: others := by
  rw [Walked.cons, h]

end

end Walked

/-! ## One thing after the other -/

/-- Things walked over one after the other; after a fault the others stay as they were. -/
def Walked.each {α β : Type} (f : β → Walked α β) : List β → Walked α (List β)
  | [] => ⟨[], pure ()⟩
  | b :: bs => (f b).cons bs fun _ => each f bs

namespace Walked

variable {α β : Type} {f g : β → Walked α β}

theorem each_congr {bs : List β} (h : ∀ b ∈ bs, f b = g b) : each f bs = each g bs := by
  induction bs with
  | nil => rfl
  | cons b bs ih =>
    obtain ⟨hb, hbs⟩ := List.forall_mem_cons.mp h
    rw [each, each, hb, ih hbs]

theorem length_each (f : β → Walked α β) (bs : List β) : (each f bs).result.length = bs.length := by
  induction bs with
  | nil => rfl
  | cons b bs ih =>
    rw [each]
    cases h : (f b).run.outcome with
    | ok u => rw [cons_result_of_ok h, List.length_cons, ih, List.length_cons]
    | error e => rw [cons_result_of_error h, List.length_cons, List.length_cons]

/-- What is left is a thing as it was or as its own walk left it. -/
theorem forall_mem_each {P : β → Prop} {bs : List β} (h : ∀ b ∈ bs, P b ∧ P (f b).result) :
    ∀ b ∈ (each f bs).result, P b := by
  induction bs with
  | nil => exact fun b hb => (by cases hb)
  | cons b bs ih =>
    obtain ⟨⟨-, hb⟩, hbs⟩ := List.forall_mem_cons.mp h
    rw [each]
    cases hrun : (f b).run.outcome with
    | ok u =>
      rw [cons_result_of_ok hrun]
      exact List.forall_mem_cons.mpr ⟨hb, ih hbs⟩
    | error e =>
      rw [cons_result_of_error hrun]
      exact List.forall_mem_cons.mpr ⟨hb, fun c hc => (hbs c hc).1⟩

/-- A walk without a fault comes to the end of each thing. -/
theorem outcome_of_each {bs : List β} {u : Unit} (h : (each f bs).run.outcome = .ok u) :
    ∀ b ∈ bs, (f b).run.outcome = .ok () := by
  induction bs with
  | nil => simp
  | cons b bs ih =>
    rw [each, cons_run] at h
    obtain ⟨v, hv, hbs⟩ := Run.outcome_bind_eq_ok_iff.mp h
    exact List.forall_mem_cons.mpr ⟨hv, ih hbs⟩

theorem outcome_each_iff {bs : List β} :
    (each f bs).run.outcome = .ok () ↔ ∀ b ∈ bs, (f b).run.outcome = .ok () := by
  refine ⟨outcome_of_each, fun h => ?_⟩
  induction bs with
  | nil => rfl
  | cons b bs ih =>
    obtain ⟨hb, hbs⟩ := List.forall_mem_cons.mp h
    rw [each, cons_run, outcome_bind_of_ok hb]
    exact ih hbs

/-- A walk without a fault notes what is noted at each thing. -/
theorem diagnostics_of_each {bs : List β} {u : Unit} (h : (each f bs).run.outcome = .ok u) :
    (each f bs).run.diagnostics = bs.flatMap fun b => (f b).run.diagnostics := by
  induction bs with
  | nil => rfl
  | cons b bs ih =>
    rw [each, cons_run] at h ⊢
    obtain ⟨v, hv, hbs⟩ := Run.outcome_bind_eq_ok_iff.mp h
    rw [diagnostics_bind_of_ok hv, ih hbs, List.flatMap_cons]

/-- A walk that changes no thing changes nothing, wherever it ends. -/
theorem each_result_eq_self {bs : List β} (h : ∀ b ∈ bs, (f b).result = b) :
    (each f bs).result = bs := by
  induction bs with
  | nil => rfl
  | cons b bs ih =>
    obtain ⟨hb, hbs⟩ := List.forall_mem_cons.mp h
    rw [each]
    cases hrun : (f b).run.outcome with
    | ok u => rw [cons_result_of_ok hrun, hb, ih hbs]
    | error e => rw [cons_result_of_error hrun, hb]

theorem each_result_of_ok {bs : List β} {u : Unit} (h : (each f bs).run.outcome = .ok u) :
    (each f bs).result = bs.map fun b => (f b).result := by
  induction bs with
  | nil => rfl
  | cons b bs ih =>
    rw [each, cons_run] at h
    obtain ⟨v, hv, hbs⟩ := Run.outcome_bind_eq_ok_iff.mp h
    rw [each, cons_result_of_ok hv, ih hbs, List.map_cons]

/-- A walk without a fault goes on with what comes after. -/
theorem each_append_of_ok {as : List β} (bs : List β) {u : Unit}
    (h : (each f as).run.outcome = .ok u) :
    (each f (as ++ bs)).result = (each f as).result ++ (each f bs).result := by
  induction as with
  | nil => rfl
  | cons a as ih =>
    rw [each, cons_run] at h
    obtain ⟨v, hv, has⟩ := Run.outcome_bind_eq_ok_iff.mp h
    rw [List.cons_append, each, each, cons_result_of_ok hv, cons_result_of_ok hv, ih has,
      List.cons_append]

/-- A walk with a fault leaves what comes after. -/
theorem each_append_of_error {as : List β} (bs : List β) {e : Fault}
    (h : (each f as).run.outcome = .error e) :
    (each f (as ++ bs)).result = (each f as).result ++ bs := by
  induction as with
  | nil => cases h
  | cons a as ih =>
    rw [each, cons_run] at h
    rw [List.cons_append, each, each]
    cases ha : (f a).run.outcome with
    | ok v =>
      rw [Run.outcome_bind_of_ok ha] at h
      rw [cons_result_of_ok ha, cons_result_of_ok ha, ih h, List.cons_append]
    | error e =>
      rw [cons_result_of_error ha, cons_result_of_error ha, List.cons_append]

/-- A walk with a fault comes to it at one of the things: the ones before it are done, and the ones
after it stay as they were. -/
theorem exists_fault_of_each {bs : List β} {e : Fault} (h : (each f bs).run.outcome = .error e) :
    ∃ (i : Nat) (b : β), bs[i]? = some b ∧ (f b).run.outcome = .error e ∧
      (each f bs).result[i]? = some (f b).result ∧
      (∀ (j : Nat) (c : β), j < i → bs[j]? = some c →
        (f c).run.outcome = .ok () ∧ (each f bs).result[j]? = some (f c).result) ∧
      ∀ j : Nat, i < j → (each f bs).result[j]? = bs[j]? := by
  induction bs with
  | nil => cases h
  | cons b bs ih =>
    rw [each]
    cases hb : (f b).run.outcome with
    | error e' =>
      have he : e' = e := by
        rw [each, cons_run, outcome_bind_of_error hb] at h
        exact Except.error.inj h
      rw [cons_result_of_error hb]
      refine ⟨0, b, rfl, he ▸ hb, rfl, fun j c hj => absurd hj (Nat.not_lt_zero j), ?_⟩
      rintro (_ | j) hj
      · exact absurd hj (Nat.lt_irrefl 0)
      · rfl
    | ok u =>
      rw [each, cons_run, outcome_bind_of_ok hb] at h
      obtain ⟨i, c, hc, hfault, hresult, hbefore, hafter⟩ := ih h
      rw [cons_result_of_ok hb]
      refine ⟨i + 1, c, hc, hfault, hresult, ?_, ?_⟩
      · rintro (_ | j) d hj hd
        · cases hd
          exact ⟨hb, rfl⟩
        · exact hbefore j d (Nat.lt_of_succ_lt_succ hj) hd
      · rintro (_ | j) hj
        · exact absurd hj (Nat.not_lt_zero _)
        · exact hafter j (Nat.lt_of_succ_lt_succ hj)

/-- A thing in the middle does not matter to the others if its own walk has no fault. -/
theorem eraseIdx_each_of_ok {as bs : List β} {b : β} {u : Unit} (h : (f b).run.outcome = .ok u) :
    (each f (as ++ b :: bs)).result.eraseIdx as.length = (each f (as ++ bs)).result := by
  have hlength := length_each f as
  cases has : (each f as).run.outcome with
  | ok v =>
    rw [each_append_of_ok _ has, each_append_of_ok _ has,
      List.eraseIdx_append_of_length_le (by omega), hlength, Nat.sub_self, each,
      cons_result_of_ok h, List.eraseIdx_cons_zero]
  | error e =>
    rw [each_append_of_error _ has, each_append_of_error _ has,
      List.eraseIdx_append_of_length_le (by omega), hlength, Nat.sub_self, List.eraseIdx_cons_zero]

/-- A thing whose own walk has a fault leaves the ones after it. -/
theorem eraseIdx_each_of_error {as bs : List β} {b : β} {e : Fault}
    (h : (f b).run.outcome = .error e) :
    (each f (as ++ b :: bs)).result.eraseIdx as.length = (each f as).result ++ bs := by
  have hlength := length_each f as
  cases has : (each f as).run.outcome with
  | ok v =>
    rw [each_append_of_ok _ has, List.eraseIdx_append_of_length_le (by omega), hlength,
      Nat.sub_self, each, cons_result_of_error h, List.eraseIdx_cons_zero]
  | error e =>
    rw [each_append_of_error _ has, List.eraseIdx_append_of_length_le (by omega), hlength,
      Nat.sub_self, List.eraseIdx_cons_zero]

end Walked

variable {α : Type} [Scalar α] [LightCurve α]

/-! ## Calls -/

/-- What a walk puts in the place of a call that it resolves: a word with the text of the color, or
the call itself when it is no color. -/
inductive Context.Replaces (ctx : Context α) (call : Node) : Node → Prop where
  | color {c : Color α} {text : String} (hcolor : (resolveColorMod call ctx).outcome = .ok (.ok c))
      (htext : c.toCss ctx.format = .ok text) : ctx.Replaces call (.word text)
  | noColor {u : Unresolved} (hcolor : (resolveColorMod call ctx).outcome = .ok (.error u)) :
      ctx.Replaces call call

theorem replaces_of_replaceCall {ctx : Context α} {call r : Node}
    (h : (replaceCall call ctx).outcome = .ok r) : ctx.Replaces call r := by
  rw [replaceCall] at h
  obtain ⟨resolution, hcolor, h⟩ := outcome_bind_eq_ok_iff.mp h
  cases resolution with
  | error u =>
    cases h
    exact .noColor hcolor
  | ok color =>
    obtain ⟨text, htext, h⟩ := outcome_bind_eq_ok_iff.mp h
    obtain ⟨-, -, h⟩ := outcome_bind_eq_ok_iff.mp h
    cases h
    exact .color hcolor (outcome_ofArithmetic_eq_ok_iff.mp htext)

/-- A call stays, also after a fault, or gives way to a word. -/
theorem walkCall_result (call : Node) (ctx : Context α) :
    (walkCall call ctx).result = call ∨
      (walkCall call ctx).run.outcome = .ok () ∧
        ∃ text, (walkCall call ctx).result = .word text := by
  cases h : (replaceCall call ctx).outcome with
  | error e =>
    rw [walkCall, h]
    exact .inl rfl
  | ok r =>
    have hrun : (walkCall call ctx).run.outcome = .ok () := outcome_bind_of_ok h
    rw [hrun, walkCall, h]
    cases replaces_of_replaceCall h with
    | color => exact .inr ⟨rfl, _, rfl⟩
    | noColor => exact .inl rfl

/-! ## The nodes of a tree -/

/-- What the walk over a node does with a child. -/
def walkChild (ctx : Context α) (c : Node) : Walked α Node :=
  if c.isCall then walkCall c ctx
  else if c.children.isEmpty then ⟨c, pure ()⟩
  else walk c ctx.descend

theorem walkAll_eq_each (cs : List Node) (ctx : Context α) :
    walkAll cs ctx = Walked.each (walkChild ctx) cs := by
  induction cs with
  | nil => rfl
  | cons c cs ih => rw [walkAll, Walked.each, ← ih]; rfl

section

variable (ctx : Context α)

theorem walk_of_tooDeep (n : Node) (hdeep : ctx.tooDeep) :
    walk n ctx = ⟨n, (ctx.report n n.outline .tooDeep).bind fun _ => pure ()⟩ := by
  cases n <;> simp only [walk, hdeep, if_true]

theorem walk_leaf (h : Node.Head) (hdeep : ¬ctx.tooDeep) :
    walk (.leaf h) ctx = ⟨.leaf h, pure ()⟩ := by
  rw [walk, if_neg hdeep]

theorem walk_branch (h : Node.Head) (cs : List Node) (hdeep : ¬ctx.tooDeep) :
    walk (.branch h cs) ctx = ⟨.branch h (walkAll cs ctx).result, (walkAll cs ctx).run⟩ := by
  rw [walk, if_neg hdeep]

end

/-- A walk keeps what a node says and how many children it has. -/
theorem head_walk (n : Node) (ctx : Context α) : (walk n ctx).result.head = n.head := by
  cases n <;> rw [walk] <;> split <;> rfl

theorem isBranch_walk (n : Node) (ctx : Context α) :
    (walk n ctx).result.isBranch = n.isBranch := by
  cases n <;> rw [walk] <;> split <;> rfl

theorem length_children_walk (n : Node) (ctx : Context α) :
    (walk n ctx).result.children.length = n.children.length := by
  by_cases hdeep : ctx.tooDeep
  · rw [walk_of_tooDeep ctx n hdeep]
  · cases n with
    | leaf h => rw [walk_leaf ctx h hdeep]
    | branch h cs =>
      rw [walk_branch ctx h cs hdeep, walkAll_eq_each]
      exact Walked.length_each _ cs

end ColorMod
