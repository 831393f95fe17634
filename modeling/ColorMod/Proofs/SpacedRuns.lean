import ColorMod.Proofs.AlikeNodes
import ColorMod.Proofs.Spaces

/-!
# Resolution in trees with and without spaces

What is resolved in a tree is resolved alike in the tree without spaces: a run over the one notes
the same and ends the same as the run over the other, but for the spaces in the nodes that it ends
with (`Run.Unspaced`).

* `Run.Unspaced.bind`: one run after the other.
* `Node.spaces`: a node and what it is without spaces are alike to resolution.
* `meaning_unspaced`, `resolveColorMod_unspaced`: so they mean the same.
-/

namespace ColorMod

open Run

variable {α β γ δ ε : Type}

/-! ## Runs -/

def Unresolved.unspaced (u : Unresolved) : Unresolved :=
  { u with node := u.node.unspaced }

def Fault.unspaced : Fault → Fault
  | .unresolved u => .unresolved u.unspaced
  | fault => fault

def Resolution.unspaced (resolution : Resolution α) : Resolution α :=
  resolution.mapError Unresolved.unspaced

/-- The second run is the first without spaces: it notes the same, and ends with what `strip` leaves
of the value, or with the same fault without the spaces in the node that it is about. -/
structure Run.Unspaced (strip : β → γ) (x : Run α β) (y : Run α γ) : Prop where
  outcome_eq : y.outcome = (x.outcome.mapError Fault.unspaced).map strip
  diagnostics_eq : y.diagnostics = x.diagnostics

namespace Run.Unspaced

theorem pure (strip : β → γ) (b : β) : Unspaced strip (pure b : Run α β) (pure (strip b)) :=
  ⟨rfl, rfl⟩

theorem bind {strip : β → γ} {strip' : δ → ε} {x : Run α β} {y : Run α γ} {f : β → Run α δ}
    {g : γ → Run α ε} (hxy : Unspaced strip x y) (hfg : ∀ b, Unspaced strip' (f b) (g (strip b))) :
    Unspaced strip' (x >>= f) (y >>= g) := by
  have hy := hxy.outcome_eq
  cases hx : x.outcome with
  | ok b =>
    rw [hx] at hy
    have hb := hfg b
    constructor
    · rw [outcome_bind_of_ok hx, outcome_bind_of_ok hy]
      exact hb.outcome_eq
    · rw [diagnostics_bind_of_ok hx, diagnostics_bind_of_ok hy, hxy.diagnostics_eq]
      exact congrArg _ hb.diagnostics_eq
  | error fault =>
    rw [hx] at hy
    constructor
    · rw [outcome_bind_of_error hx, outcome_bind_of_error hy]
      rfl
    · rw [diagnostics_bind_of_error hx, diagnostics_bind_of_error hy, hxy.diagnostics_eq]

/-- What is told among the events does not count. -/
theorem tell_bind {strip : β → γ} {x : Run α β} {y : Run α γ} (event event' : Event α)
    (hxy : Unspaced strip x y) :
    Unspaced strip (tell event >>= fun _ => x) (tell event' >>= fun _ => y) :=
  ⟨hxy.outcome_eq, hxy.diagnostics_eq⟩

theorem ofArithmetic (x : Except ArithmeticFault β) :
    Unspaced id (ofArithmetic x : Run α β) (ofArithmetic x) := by
  cases x <;> exact ⟨rfl, rfl⟩

theorem report (ctx : Context α) (node : Node) (word : String) (complaint : Complaint) :
    Unspaced Unresolved.unspaced (ctx.report node word complaint)
      (ctx.report node.unspaced word complaint) := by
  unfold Context.report
  cases ctx.policy <;> exact ⟨rfl, rfl⟩

end Run.Unspaced

/-! ## Nodes -/

/-- A node is like itself without spaces, with the same texts. -/
def Node.spaces : NodeLikeness where
  node m n := m.Delimited ∧ n = m.unspaced
  text := Eq
  kind_eq h := by rw [h.2, kind_unspaced]
  name_eq h := by rw [h.2, name_unspaced]
  value_eq h _ _ := by rw [h.2, value_unspaced]
  isNumber_eq h := by rw [h.2, isNumber, isNumber, kind_unspaced, unit_unspaced]
  isPercentage_eq h := by rw [h.2, isPercentage, isPercentage, kind_unspaced, unit_unspaced]
  isHue_eq h := by rw [h.2, isHue, isHue, kind_unspaced, unit_unspaced]
  bytes?_eq h _ := by rw [h.2, value_unspaced]
  hash_iff h _ := by rw [h.2, value_unspaced]
  text_value h := by rw [h.2, value_unspaced]
  text_render h := by rw [h.2, h.1.render_unspaced]
  text_outline h := by rw [h.2, h.1.outline_unspaced]
  arguments {m n} h := by
    rw [h.2, h.1.arguments_unspaced, List.forall₂_map_right_iff]
    exact List.forall₂_same.mpr fun a ha => ⟨h.1.of_mem_arguments ha, rfl⟩

theorem Node.Delimited.spaces {n : Node} (hn : n.Delimited) : Node.spaces.node n n.unspaced :=
  ⟨hn, rfl⟩

theorem notes_spaces_eq {d e : Diagnostic} (h : Node.spaces.Notes d e) : d = e := by
  obtain ⟨complaint, word⟩ := d
  obtain ⟨rfl, hword⟩ := h
  cases hword
  rfl

theorem rejects_spaces_eq {u v : Unresolved} (h : Node.spaces.Rejects u v) : v = u.unspaced := by
  obtain ⟨d, node⟩ := u
  obtain ⟨d', node'⟩ := v
  obtain ⟨hnotes, -, hnode⟩ := h
  cases notes_spaces_eq hnotes
  cases hnode
  rfl

/-- Runs that are alike but for spaces. -/
theorem Run.Unspaced.of_runs {R : β → γ → Prop} {strip : β → γ} {x : Run α β} {y : Run α γ}
    (h : Node.spaces.Runs R x y) (hR : ∀ b c, R b c → c = strip b) : Run.Unspaced strip x y where
  outcome_eq := by
    refine h.outcome.eq_map (fun fault fault' hfault => ?_) hR
    cases hfault with
    | arithmetic fault => rfl
    | suggestion fault => rfl
    | unresolved hu => rw [rejects_spaces_eq hu]; rfl
  diagnostics_eq := by
    have hnotes : List.Forall₂ Eq x.diagnostics y.diagnostics :=
      h.diagnostics.imp fun _ _ => notes_spaces_eq
    rw [List.forall₂_eq_eq_eq] at hnotes
    exact hnotes.symm

theorem Run.Unspaced.of_resolves {x y : Run α (Resolution α)}
    (h : Node.spaces.Runs Node.spaces.Resolves x y) : Run.Unspaced Resolution.unspaced x y := by
  refine .of_runs h fun resolution resolution' hresolution => ?_
  cases hresolution with
  | ok hc => cases hc; rfl
  | error hu => rw [rejects_spaces_eq hu]; rfl

variable [Scalar α]

/-- The second argument is the first without spaces, and means the same. -/
structure Argument.Unspaced (arg arg' : Argument α) : Prop where
  node_eq : arg'.node = arg.node.unspaced
  color : ∀ ctx : Context α, Run.Unspaced Resolution.unspaced (arg.color ctx) (arg'.color ctx)
  adjust : ∀ (c : Color α) (ctx : Context α),
    Run.Unspaced Resolution.unspaced (arg.adjust c ctx) (arg'.adjust c ctx)

/-- A node means the same without the spaces in it. -/
theorem meaning_unspaced [LightCurve α] (n : Node) (hn : n.Delimited) :
    (meaning n : Argument α).Unspaced (meaning n.unspaced) := by
  have hmeans := NodeLikeness.means_meaning (α := α) n n.unspaced hn.spaces
  exact ⟨by rw [meaning_node, meaning_node], fun ctx => .of_resolves (hmeans.color ctx),
    fun c ctx => .of_resolves (hmeans.adjust c ctx)⟩

theorem resolveColorMod_unspaced [LightCurve α] {call : Node} (hcall : call.Delimited)
    (ctx : Context α) :
    Run.Unspaced Resolution.unspaced (resolveColorMod call ctx)
      (resolveColorMod call.unspaced ctx) :=
  .of_resolves (NodeLikeness.resolveColorMod_runs hcall.spaces ctx)

end ColorMod
