import ColorMod.Variables
import ColorMod.Proofs.Substitution

/-!
# Substitution call by call

A `var` call stands for the value of its name or for its fallback (`Node.source?`).  Substitution
puts nodes in the place of the outermost calls of a tree, and which nodes these are depends on the
call and the properties alone (`expansion`).

* `substituteNode_of_source`, `substituteNode_of_stuck`, `substitute_induction`: substitution in
  terms of what a call stands for.
* `substitute_eq_splice`: the tree after a substitution, put together from expansions.
* `splice_eq_self`: what stays when the calls do.
-/

namespace ColorMod

namespace Node

/-! ## The outermost calls -/

mutual

/-- The outermost `var` calls below a node, from left to right. -/
def variablesBelow : Node → List Node
  | leaf _ => []
  | branch _ cs => variablesAmong cs

/-- The outermost `var` calls among nodes and below them. -/
def variablesAmong : List Node → List Node
  | [] => []
  | c :: cs => (if c.isVariable then [c] else c.variablesBelow) ++ variablesAmong cs

end

mutual

/-- The tree with the outermost `var` calls below it giving way to other nodes. -/
def splice (f : Node → List Node) : Node → Node
  | leaf h => leaf h
  | branch h cs => branch h (spliceAmong f cs)

def spliceAmong (f : Node → List Node) : List Node → List Node
  | [] => []
  | c :: cs => (if c.isVariable then f c else [c.splice f]) ++ spliceAmong f cs

end

theorem variablesBelow_eq (n : Node) : n.variablesBelow = variablesAmong n.children := by
  cases n <;> rfl

theorem mem_variablesAmong {call : Node} {ns : List Node} :
    call ∈ variablesAmong ns ↔
      ∃ n ∈ ns, call ∈ if n.isVariable then [n] else n.variablesBelow := by
  induction ns with
  | nil => simp [variablesAmong]
  | cons n ns ih =>
    simp only [variablesAmong, List.mem_append, ih, List.mem_cons, or_and_right, exists_or,
      exists_eq_left]

theorem variablesAmong_cons (n : Node) (ns : List Node) :
    variablesAmong (n :: ns) = variablesAmong [n] ++ variablesAmong ns := by
  rw [variablesAmong, variablesAmong, variablesAmong, List.append_nil]

theorem variablesAmong_append (ns ms : List Node) :
    variablesAmong (ns ++ ms) = variablesAmong ns ++ variablesAmong ms := by
  induction ns with
  | nil => rfl
  | cons n ns ih =>
    rw [List.cons_append, variablesAmong, variablesAmong, ih, List.append_assoc]

theorem variablesAmong_of_isVariable {n : Node} (hn : n.isVariable) : variablesAmong [n] = [n] := by
  simp [variablesAmong, hn]

theorem mem_variablesAmong_self {n : Node} (hn : n.isVariable) : n ∈ variablesAmong [n] := by
  rw [variablesAmong_of_isVariable hn]
  exact List.mem_singleton_self n

theorem variablesAmong_leaf {h : Head} (hn : ¬(leaf h).isVariable) :
    variablesAmong [leaf h] = [] := by
  simp [variablesAmong, variablesBelow, hn]

/-- A node is a call by what it says, whatever its children are. -/
theorem variablesAmong_branch {h : Head} {cs : List Node} (hn : ¬(branch h cs).isVariable)
    (ds : List Node) : variablesAmong [branch h ds] = variablesAmong ds := by
  have hsame : ¬(branch h ds).isVariable := hn
  simp [variablesAmong, variablesBelow, hsame]

mutual

theorem isVariable_of_mem_variablesBelow {call : Node} : ∀ {n : Node},
    call ∈ n.variablesBelow → call.isVariable
  | leaf h, hcall => by cases hcall
  | branch h cs, hcall => @isVariable_of_mem_variablesAmong call cs hcall

theorem isVariable_of_mem_variablesAmong {call : Node} : ∀ {ns : List Node},
    call ∈ variablesAmong ns → call.isVariable
  | [], hcall => by cases hcall
  | n :: ns, hcall => by
    rw [variablesAmong, List.mem_append] at hcall
    rcases hcall with hcall | hcall
    · split at hcall
      · next hn => exact List.mem_singleton.mp hcall ▸ hn
      · exact isVariable_of_mem_variablesBelow hcall
    · exact isVariable_of_mem_variablesAmong hcall

end

theorem trimSpaces_subset (ns : List Node) : trimSpaces ns ⊆ ns := by
  intro n hn
  rw [trimSpaces, List.mem_reverse] at hn
  have hrest := (List.dropWhile_sublist _).subset hn
  rw [List.mem_reverse] at hrest
  exact (List.dropWhile_sublist _).subset hrest

theorem variablesAmong_trimSpaces_subset (ns : List Node) :
    variablesAmong (trimSpaces ns) ⊆ variablesAmong ns := by
  intro call hcall
  obtain ⟨n, hn, hmem⟩ := mem_variablesAmong.mp hcall
  exact mem_variablesAmong.mpr ⟨n, trimSpaces_subset ns hn, hmem⟩

mutual

/-- A tree stays as it is when its calls do. -/
theorem splice_eq_self {f : Node → List Node} :
    ∀ n : Node, (∀ call ∈ n.variablesBelow, f call = [call]) → n.splice f = n
  | leaf h, _ => rfl
  | branch h cs, hf => by rw [splice, spliceAmong_eq_self cs hf]

theorem spliceAmong_eq_self {f : Node → List Node} :
    ∀ ns : List Node, (∀ call ∈ variablesAmong ns, f call = [call]) → spliceAmong f ns = ns
  | [], _ => rfl
  | n :: ns, hf => by
    simp only [variablesAmong, List.mem_append] at hf
    have hns := spliceAmong_eq_self ns fun call hcall => hf call (.inr hcall)
    rw [spliceAmong, hns]
    by_cases hn : n.isVariable
    · rw [if_pos hn, hf n (.inl (by simp [hn])), List.singleton_append]
    · have hbelow := splice_eq_self n fun call hcall => hf call (.inl (by simpa [hn] using hcall))
      rw [if_neg hn, hbelow, List.singleton_append]

end

end Node

open Node

/-! ## What a call stands for -/

/-- What a `var` call stands for. -/
def Node.source? (props : Properties) (call : Node) : Option (List Node) :=
  call.variableName?.bind fun name =>
    match props.lookup name with
    | some value => some value.children
    | none => call.fallback?

section

variable {props : Properties} {seen : List String} {call : Node} {name : String}

namespace Node

theorem source?_of_malformed (hname : call.variableName? = none) : call.source? props = none := by
  rw [source?, hname, Option.bind_none]

theorem source?_of_defined {value : Node} (hname : call.variableName? = some name)
    (hdef : props.lookup name = some value) : call.source? props = some value.children := by
  rw [source?, hname, Option.bind_some, hdef]

theorem source?_of_undefined (hname : call.variableName? = some name)
    (hdef : props.lookup name = none) : call.source? props = call.fallback? := by
  rw [source?, hname, Option.bind_some, hdef]

end Node

/-- A call that stands for nothing stays. -/
theorem substituteNode_of_stuck (hcall : call.isVariable) (hsource : call.source? props = none)
    (hseen : ∀ name ∈ seen, call.variableName? ≠ some name) :
    substituteNode props seen call = ([call], true) := by
  cases hname : call.variableName? with
  | none => exact substituteNode_of_malformed hcall hname
  | some name =>
    have hfresh : name ∉ seen := fun hmem => hseen name hmem hname
    cases hdef : props.lookup name with
    | some value => rw [source?_of_defined hname hdef] at hsource; cases hsource
    | none =>
      rw [source?_of_undefined hname hdef] at hsource
      exact substituteNode_of_undefined hcall hname hfresh hdef hsource

/-- A call gives way to what it stands for, substituted with its name among those being expanded. -/
theorem substituteNode_of_source {nodes : List Node} (hcall : call.isVariable)
    (hname : call.variableName? = some name) (hseen : name ∉ seen)
    (hsource : call.source? props = some nodes) :
    substituteNode props seen call = (substituteAll props (name :: seen) nodes).orKeep call := by
  cases hdef : props.lookup name with
  | some value =>
    rw [source?_of_defined hname hdef] at hsource
    cases hsource
    exact substituteNode_of_defined hcall hname hseen hdef
  | none =>
    rw [source?_of_undefined hname hdef] at hsource
    exact substituteNode_of_fallback hcall hname hseen hdef hsource

end

namespace Substituted

theorem orKeep_snd (call : Node) (expanded : Substituted) :
    (expanded.orKeep call).2 = expanded.2 := by
  obtain ⟨nodes, ok⟩ := expanded
  cases ok <;> rfl

theorem orKeep_of_not_ok {expanded : Substituted} (call : Node) (h : ¬expanded.2) :
    (expanded.orKeep call).1 = [call] := by
  obtain ⟨nodes, ok⟩ := expanded
  cases ok with
  | true => exact absurd rfl h
  | false => rfl

end Substituted

/-- Induction along a substitution.  A defined name and a fallback are one case, and so are a
malformed name and an undefined one without a fallback. -/
theorem substitute_induction (props : Properties) {motiveNode : List String → Node → Prop}
    {motiveAll : List String → List Node → Prop}
    (stuck : ∀ seen call, call.isVariable → call.source? props = none →
      (∀ name ∈ seen, call.variableName? ≠ some name) → motiveNode seen call)
    (seen : ∀ seen call name, call.isVariable → call.variableName? = some name → name ∈ seen →
      motiveNode seen call)
    (source : ∀ seen call name nodes, call.isVariable → call.variableName? = some name →
      name ∉ seen → call.source? props = some nodes → motiveAll (name :: seen) nodes →
      motiveNode seen call)
    (leaf : ∀ seen h, ¬(leaf h).isVariable → motiveNode seen (leaf h))
    (branch : ∀ seen h cs, ¬(branch h cs).isVariable → motiveAll seen cs →
      motiveNode seen (branch h cs))
    (nil : ∀ seen, motiveAll seen [])
    (cons : ∀ seen n ns, motiveNode seen n → motiveAll seen ns → motiveAll seen (n :: ns)) :
    (∀ seen n, motiveNode seen n) ∧ ∀ seen ns, motiveAll seen ns := by
  refine substituteNode.mutual_induct props motiveNode motiveAll
    ?malformed ?seen ?defined ?fallback ?undefined ?leaf ?branch ?nil ?cons
  case malformed =>
    intro seen n hn hname
    exact stuck seen n hn (source?_of_malformed hname) (by simp [hname])
  case seen => exact fun seen' n hn k hk hseen => seen seen' n k hn hk hseen
  case defined =>
    intro seen n hn k hk hseen value hdef ih
    exact source seen n k _ hn hk hseen (source?_of_defined hk hdef) ih
  case fallback =>
    intro seen n hn k hk hseen hdef nodes hfall ih
    exact source seen n k nodes hn hk hseen ((source?_of_undefined hk hdef).trans hfall) ih
  case undefined =>
    intro seen n hn k hk hseen hdef hfall
    refine stuck seen n hn ((source?_of_undefined hk hdef).trans hfall) fun name hname hk' => ?_
    rw [hk] at hk'
    cases hk'
    exact hseen hname
  case leaf => exact leaf
  case branch => exact fun seen h cs _ _ _ hn ih => branch seen h cs hn ih
  case nil => exact nil
  case cons => exact fun seen n ns _ _ _ _ _ _ ihn ihns => cons seen n ns ihn ihns

/-! ## Expansions -/

/-- The nodes that substitution puts in the place of an outermost call. -/
def expansion (props : Properties) (call : Node) : List Node :=
  (substituteNode props [] call).1

mutual

theorem substituteNode_eq_splice (props : Properties) : ∀ n : Node, ¬n.isVariable →
    (substituteNode props [] n).1 = [n.splice (expansion props)]
  | leaf h, hn => by rw [substituteNode_leaf hn]; rfl
  | branch h cs, hn => by
    rw [substituteNode_branch hn, splice, substituteAll_eq_splice props cs]

theorem substituteAll_eq_splice (props : Properties) : ∀ ns : List Node,
    (substituteAll props [] ns).1 = spliceAmong (expansion props) ns
  | [] => by rw [substituteAll]; rfl
  | n :: ns => by
    rw [substituteAll_cons, spliceAmong, substituteAll_eq_splice props ns]
    by_cases hn : n.isVariable
    · rw [if_pos hn]; rfl
    · rw [if_neg hn, substituteNode_eq_splice props n hn]

end

theorem children_substitute (props : Properties) (tree : Node) :
    (substitute props tree).children = (substituteAll props [] tree.children).1 := by
  cases tree with
  | leaf h => rw [substitute, children, substituteAll]
  | branch h cs => rw [substitute, children, children]

/-- Substitution puts the expansion of each call in its place. -/
theorem substitute_eq_splice (props : Properties) (tree : Node) :
    substitute props tree = tree.splice (expansion props) := by
  cases tree with
  | leaf h => rfl
  | branch h cs => rw [substitute, splice, substituteAll_eq_splice]

section

variable {props : Properties} {call : Node} {name : String}

theorem expansion_of_stuck (hcall : call.isVariable) (hsource : call.source? props = none) :
    expansion props call = [call] := by
  rw [expansion, substituteNode_of_stuck hcall hsource (by simp)]

theorem expansion_of_source {nodes : List Node} (hcall : call.isVariable)
    (hname : call.variableName? = some name) (hsource : call.source? props = some nodes) :
    expansion props call = ((substituteAll props [name] nodes).orKeep call).1 := by
  rw [expansion, substituteNode_of_source hcall hname List.not_mem_nil hsource]

end

end ColorMod
