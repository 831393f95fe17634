import ColorMod.Proofs.Expansion
import Mathlib.Logic.Relation

/-!
# References between `var` calls

A `var` call refers to the calls in what it stands for.  A name recurs when the calls that a call of
it leads to include one of the same name.

* `substituteNode_ok_iff`: a substitution comes to its end when no name recurs, defined or not.
* `referencesEnd_of_not_recurs`, `not_referencesEnd_of_recurs`: the references from a call end
  unless a defined name recurs, because the fallback of an undefined name is a part of its call.
-/

namespace ColorMod

open Node Relation

/-- A call refers to the outermost calls in what it stands for. -/
def Refers (props : Properties) (call call' : Node) : Prop :=
  ∃ nodes, call.source? props = some nodes ∧ call' ∈ variablesAmong nodes

/-- The references from a call do not go on for ever. -/
abbrev ReferencesEnd (props : Properties) (call : Node) : Prop :=
  Acc (fun c c' => Refers props c' c) call

/-- The references from a call lead to a call of the name, and on from there to another one. -/
def Recurs (props : Properties) (call : Node) (name : String) : Prop :=
  ∃ c c', ReflTransGen (Refers props) call c ∧ TransGen (Refers props) c c' ∧
    c.variableName? = some name ∧ c'.variableName? = some name

section

variable {props : Properties} {seen : List String} {call call' : Node} {name : String}

theorem Recurs.of_refers (h : Refers props call call') (hrecurs : Recurs props call' name) :
    Recurs props call name := by
  obtain ⟨c, c', hc, hc', hnames⟩ := hrecurs
  exact ⟨c, c', .head h hc, hc', hnames⟩

/-- A name recurs at the call itself or further on. -/
theorem Recurs.cases (h : Recurs props call name) :
    call.variableName? = some name ∧
        (∃ c', TransGen (Refers props) call c' ∧ c'.variableName? = some name) ∨
      ∃ call', Refers props call call' ∧ Recurs props call' name := by
  obtain ⟨c, c', hc, hc', hname, hname'⟩ := h
  rcases hc.cases_head with rfl | ⟨call', href, hc⟩
  · exact .inl ⟨hname, c', hc', hname'⟩
  · exact .inr ⟨call', href, c, c', hc, hc', hname, hname'⟩

/-! ## Recurrence and substitution -/

/-- The references from a call lead to none of the names that are being expanded, and no name
recurs. -/
structure Unrepeated (props : Properties) (seen : List String) (call : Node) : Prop where
  not_seen : ∀ c, ReflTransGen (Refers props) call c → ∀ name ∈ seen, c.variableName? ≠ some name
  not_recurs : ∀ name, ¬Recurs props call name

theorem not_refers_of_source?_eq_none (hsource : call.source? props = none) :
    ¬Refers props call call' := by
  rintro ⟨nodes, hnodes, -⟩
  rw [hsource] at hnodes
  cases hnodes

/-- A call that stands for nothing refers to nothing. -/
theorem unrepeated_of_source?_eq_none (hsource : call.source? props = none)
    (hseen : ∀ name ∈ seen, call.variableName? ≠ some name) : Unrepeated props seen call where
  not_seen c hc := by
    rcases hc.cases_head with rfl | ⟨call', href, -⟩
    · exact hseen
    · exact absurd href (not_refers_of_source?_eq_none hsource)
  not_recurs name h := by
    rcases h.cases with ⟨-, c', hc', -⟩ | ⟨call', href, -⟩
    · obtain ⟨call', href, -⟩ := TransGen.head'_iff.mp hc'
      exact not_refers_of_source?_eq_none hsource href
    · exact not_refers_of_source?_eq_none hsource href

/-- To expand a call is to expand the calls that it refers to, with its name among those that are
being expanded. -/
theorem unrepeated_iff {nodes : List Node} (hname : call.variableName? = some name)
    (hseen : name ∉ seen) (hsource : call.source? props = some nodes) :
    Unrepeated props seen call ↔
      ∀ call' ∈ variablesAmong nodes, Unrepeated props (name :: seen) call' := by
  have hrefers : ∀ call', Refers props call call' ↔ call' ∈ variablesAmong nodes := by
    intro call'
    simp only [Refers, hsource, Option.some.injEq, exists_eq_left']
  constructor
  · intro h call' hcall'
    have href := (hrefers call').mpr hcall'
    refine ⟨fun c hc k hk hck => ?_, fun k hk => h.not_recurs k (hk.of_refers href)⟩
    rcases List.mem_cons.mp hk with rfl | hk
    · exact h.not_recurs k ⟨call, c, .refl, .head' href hc, hname, hck⟩
    · exact h.not_seen c (.head href hc) k hk hck
  · refine fun h => ⟨fun c hc k hk hck => ?_, fun k hk => ?_⟩
    · rcases hc.cases_head with rfl | ⟨call', href, hc⟩
      · rw [hname] at hck
        cases hck
        exact hseen hk
      · exact (h call' ((hrefers call').mp href)).not_seen c hc k (List.mem_cons_of_mem _ hk) hck
    · rcases hk.cases with ⟨hk, c', hc', hck'⟩ | ⟨call', href, hk⟩
      · rw [hname] at hk
        cases hk
        obtain ⟨call', href, hc'⟩ := TransGen.head'_iff.mp hc'
        exact (h call' ((hrefers call').mp href)).not_seen c' hc' name List.mem_cons_self hck'
      · exact (h call' ((hrefers call').mp href)).not_recurs k hk

end

/-- A substitution comes to its end just when the calls that it meets have this property. -/
theorem substitute_ok_aux (props : Properties) :
    (∀ (seen : List String) (n : Node), (substituteNode props seen n).2 ↔
      ∀ call ∈ variablesAmong [n], Unrepeated props seen call) ∧
    ∀ (seen : List String) (ns : List Node), (substituteAll props seen ns).2 ↔
      ∀ call ∈ variablesAmong ns, Unrepeated props seen call := by
  refine substitute_induction props ?stuck ?seen ?source ?leaf ?branch ?nil ?cons
  case stuck =>
    intro seen call hcall hsource hseen
    rw [substituteNode_of_stuck hcall hsource hseen, variablesAmong_of_isVariable hcall,
      List.forall_mem_singleton]
    exact iff_of_true rfl (unrepeated_of_source?_eq_none hsource hseen)
  case seen =>
    intro seen call name hcall hname hseen
    rw [substituteNode_of_seen hcall hname hseen, variablesAmong_of_isVariable hcall,
      List.forall_mem_singleton]
    exact iff_of_false Bool.false_ne_true fun h => h.not_seen call .refl name hseen hname
  case source =>
    intro seen call name nodes hcall hname hseen hsource ih
    rw [substituteNode_of_source hcall hname hseen hsource, Substituted.orKeep_snd, ih,
      variablesAmong_of_isVariable hcall, List.forall_mem_singleton,
      unrepeated_iff hname hseen hsource]
  case leaf =>
    intro seen h hn
    rw [substituteNode_leaf hn, variablesAmong_leaf hn]
    exact iff_of_true rfl fun call hcall => (by cases hcall)
  case branch =>
    intro seen h cs hn ih
    rw [substituteNode_branch hn, variablesAmong_branch hn, ih]
  case nil =>
    intro seen
    rw [substituteAll]
    exact iff_of_true rfl fun call hcall => (by cases hcall)
  case cons =>
    intro seen n ns ihn ihns
    rw [substituteAll_cons, Bool.and_eq_true, ihn, ihns, variablesAmong_cons n ns,
      List.forall_mem_append]

theorem unrepeated_nil_iff {props : Properties} {call : Node} :
    Unrepeated props [] call ↔ ∀ name, ¬Recurs props call name :=
  ⟨fun h => h.not_recurs, fun h => ⟨by simp, h⟩⟩

/-- With no names being expanded at first, a call is expanded to the end when no name recurs. -/
theorem substituteNode_ok_iff {props : Properties} {call : Node} (hcall : call.isVariable) :
    (substituteNode props [] call).2 ↔ ∀ name, ¬Recurs props call name := by
  rw [(substitute_ok_aux props).1, variablesAmong_of_isVariable hcall, List.forall_mem_singleton,
    unrepeated_nil_iff]

theorem substituteAll_ok_iff {props : Properties} {ns : List Node} :
    (substituteAll props [] ns).2 ↔
      ∀ call ∈ variablesAmong ns, ∀ name, ¬Recurs props call name := by
  simp only [(substitute_ok_aux props).2, unrepeated_nil_iff]

/-! ## Recurrence of defined names -/

mutual

theorem sizeOf_lt_of_mem_variablesBelow {call : Node} : ∀ {n : Node},
    call ∈ n.variablesBelow → sizeOf call < sizeOf n
  | .leaf h, hcall => by cases hcall
  | .branch h cs, hcall => by
    have hcs := @sizeOf_lt_of_mem_variablesAmong call cs hcall
    simp only [Node.branch.sizeOf_spec]
    omega

/-- A call among nodes is smaller than the nodes together. -/
theorem sizeOf_lt_of_mem_variablesAmong {call : Node} : ∀ {ns : List Node},
    call ∈ variablesAmong ns → sizeOf call < sizeOf ns
  | [], hcall => by cases hcall
  | n :: ns, hcall => by
    rw [variablesAmong, List.mem_append] at hcall
    simp only [List.cons.sizeOf_spec]
    rcases hcall with hcall | hcall
    · split at hcall
      · cases List.mem_singleton.mp hcall
        omega
      · have hn := sizeOf_lt_of_mem_variablesBelow hcall
        omega
    · have hns := sizeOf_lt_of_mem_variablesAmong hcall
      omega

end

/-- The references end that lead to none of the names.  A defined name is added to these when it is
met, and the fallback of an undefined one is smaller than its call. -/
theorem referencesEnd_of_not_seen {props : Properties} {seen : List String} {call : Node}
    (hseen : ∀ c, ReflTransGen (Refers props) call c → ∀ name ∈ seen, c.variableName? ≠ some name)
    (hrecurs : ∀ name value, props.lookup name = some value → ¬Recurs props call name) :
    ReferencesEnd props call := by
  induction hbound : props.unseen seen using Nat.strongRecOn generalizing seen call with
  | _ bound ihname =>
    induction hsize : sizeOf call using Nat.strongRecOn generalizing call with
    | _ size ihsize =>
      refine Acc.intro call fun call' href => ?_
      have hrecurs' : ∀ k value, props.lookup k = some value → ¬Recurs props call' k :=
        fun k value hk h => hrecurs k value hk (h.of_refers href)
      have hseen' : ∀ c, ReflTransGen (Refers props) call' c →
          ∀ k ∈ seen, c.variableName? ≠ some k := fun c hc => hseen c (.head href hc)
      obtain ⟨nodes, hsource, hcall'⟩ := id href
      obtain ⟨name, hname, hnodes⟩ := Option.bind_eq_some_iff.mp hsource
      cases hdef : props.lookup name with
      | some value =>
        have hfresh : name ∉ seen := fun hmem => hseen call .refl name hmem hname
        have hmore : ∀ c, ReflTransGen (Refers props) call' c →
            ∀ k ∈ name :: seen, c.variableName? ≠ some k := by
          intro c hc k hk hck
          rcases List.mem_cons.mp hk with rfl | hk
          · exact hrecurs k value hdef ⟨call, c, .refl, .head' href hc, hname, hck⟩
          · exact hseen' c hc k hk hck
        exact ihname _ (hbound ▸ Properties.unseen_cons_lt hfresh hdef) hmore hrecurs' rfl
      | none =>
        rw [hdef] at hnodes
        have hsmaller : sizeOf call' < sizeOf call :=
          Nat.lt_trans (sizeOf_lt_of_mem_variablesAmong hcall') (sizeOf_fallback_lt hnodes)
        exact ihsize _ (hsize ▸ hsmaller) hseen' hrecurs' rfl

/-- The references from a call end unless a defined name recurs. -/
theorem referencesEnd_of_not_recurs {props : Properties} {call : Node}
    (hrecurs : ∀ name value, props.lookup name = some value → ¬Recurs props call name) :
    ReferencesEnd props call := by
  have hnone : ∀ c, ReflTransGen (Refers props) call c →
      ∀ name ∈ ([] : List String), c.variableName? ≠ some name := by simp
  exact referencesEnd_of_not_seen hnone hrecurs

/-- References that end do not lead back. -/
theorem not_transGen_self_of_referencesEnd {props : Properties} {call c : Node}
    (hend : ReferencesEnd props call) (hc : ReflTransGen (Refers props) call c) :
    ¬TransGen (Refers props) c c := by
  induction hend generalizing c with
  | intro call _ ih =>
    intro hloop
    rcases hc.cases_head with rfl | ⟨call', href, hc⟩
    · obtain ⟨call', href, hback⟩ := TransGen.head'_iff.mp hloop
      exact ih call' href .refl (.tail' hback href)
    · exact ih call' href hc hloop

/-- Where a defined name recurs the references do not end, because both calls of the name stand for
the same. -/
theorem not_referencesEnd_of_recurs {props : Properties} {call value : Node} {name : String}
    (hdef : props.lookup name = some value) (h : Recurs props call name) :
    ¬ReferencesEnd props call := by
  obtain ⟨c, c', hc, hc', hname, hname'⟩ := h
  intro hend
  obtain ⟨d, hd, hdc'⟩ := TransGen.head'_iff.mp hc'
  have hd' : Refers props c' d := by
    obtain ⟨nodes, hnodes, hmem⟩ := hd
    refine ⟨nodes, ?_, hmem⟩
    rw [← hnodes, source?_of_defined hname hdef, source?_of_defined hname' hdef]
  exact not_transGen_self_of_referencesEnd hend (hc.tail hd) (.tail' hdc' hd')

end ColorMod
