import ColorMod.Variables
import ColorMod.Proofs.Meanings

/-!
# Substitution reads only the names that are mentioned

`Node.variableNames` lists the names in the `var` calls of a node.  A property that no call mentions
is never looked up, neither in the node nor in the values and fallbacks that the expansion comes
through, so two lists of properties that differ in that name alone substitute alike.

* `substituteNode_of_defined` and the others: what becomes of a node, case by case.
* `substituteAll_congr`, `substitute_congr`: properties that differ in a name that is not mentioned.
-/

namespace ColorMod

open Node Properties

/-! ## The cases of substitution -/

section

variable {props : Properties} {seen : List String} {n : Node} {name : String}

theorem substituteNode_of_malformed (hn : n.isVariable) (hname : n.variableName? = none) :
    substituteNode props seen n = ([n], true) := by
  rw [substituteNode.eq_def, if_pos hn]
  simp only [hname]

theorem substituteNode_of_seen (hn : n.isVariable) (hname : n.variableName? = some name)
    (hseen : name ∈ seen) : substituteNode props seen n = ([n], false) := by
  rw [substituteNode.eq_def, if_pos hn]
  simp only [hname, dif_pos hseen]

theorem substituteNode_of_defined {value : Node} (hn : n.isVariable)
    (hname : n.variableName? = some name) (hseen : name ∉ seen)
    (hdef : props.lookup name = some value) :
    substituteNode props seen n = (substituteAll props (name :: seen) value.children).orKeep n := by
  rw [substituteNode.eq_def, if_pos hn]
  simp only [hname, dif_neg hseen]
  split
  · next value' h => rw [hdef] at h; cases h; rfl
  · next h => rw [hdef] at h; cases h

theorem substituteNode_of_fallback {nodes : List Node} (hn : n.isVariable)
    (hname : n.variableName? = some name) (hseen : name ∉ seen) (hdef : props.lookup name = none)
    (hfall : n.fallback? = some nodes) :
    substituteNode props seen n = (substituteAll props (name :: seen) nodes).orKeep n := by
  rw [substituteNode.eq_def, if_pos hn]
  simp only [hname, dif_neg hseen]
  split
  · next value' h => rw [hdef] at h; cases h
  · split
    · next nodes' h => rw [hfall] at h; cases h; rfl
    · next h => rw [hfall] at h; cases h

theorem substituteNode_of_undefined (hn : n.isVariable) (hname : n.variableName? = some name)
    (hseen : name ∉ seen) (hdef : props.lookup name = none) (hfall : n.fallback? = none) :
    substituteNode props seen n = ([n], true) := by
  rw [substituteNode.eq_def, if_pos hn]
  simp only [hname, dif_neg hseen]
  split
  · next value' h => rw [hdef] at h; cases h
  · split
    · next nodes' h => rw [hfall] at h; cases h
    · rfl

theorem substituteNode_leaf {h : Head} (hn : ¬(leaf h).isVariable) :
    substituteNode props seen (leaf h) = ([leaf h], true) := by
  rw [substituteNode.eq_def, if_neg hn]

theorem substituteNode_branch {h : Head} {cs : List Node} (hn : ¬(branch h cs).isVariable) :
    substituteNode props seen (branch h cs) =
      ([branch h (substituteAll props seen cs).1], (substituteAll props seen cs).2) := by
  rw [substituteNode.eq_def, if_neg hn]

theorem substituteAll_cons {ns : List Node} :
    substituteAll props seen (n :: ns) =
      ((substituteNode props seen n).1 ++ (substituteAll props seen ns).1,
        (substituteNode props seen n).2 && (substituteAll props seen ns).2) := by
  rw [substituteAll]

theorem substituteAll_append (ns ms : List Node) :
    substituteAll props seen (ns ++ ms) =
      ((substituteAll props seen ns).1 ++ (substituteAll props seen ms).1,
        (substituteAll props seen ns).2 && (substituteAll props seen ms).2) := by
  induction ns with
  | nil => simp [substituteAll]
  | cons n ns ih =>
    rw [List.cons_append, substituteAll_cons, substituteAll_cons, ih, List.append_assoc,
      Bool.and_assoc]

theorem substituteAll_leaf {h : Head} (hn : ¬(leaf h).isVariable) :
    substituteAll props seen [leaf h] = ([leaf h], true) := by
  rw [substituteAll_cons, substituteAll, substituteNode_leaf hn]
  rfl

/-- The parentheses of a function stay. -/
theorem substituteAll_parens (ns : List Node) :
    substituteAll props seen (.paren "(" :: ns ++ [.paren ")"]) =
      (.paren "(" :: (substituteAll props seen ns).1 ++ [.paren ")"],
        (substituteAll props seen ns).2) := by
  have hparen : ∀ text, substituteAll props seen [.paren text] = ([.paren text], true) :=
    fun text => substituteAll_leaf Bool.false_ne_true
  rw [← List.singleton_append, substituteAll_append, substituteAll_append, hparen, hparen,
    Bool.true_and, Bool.and_true]
  rfl

theorem substituteNode_function {args : List Node} (hn : ¬(Node.function name args).isVariable) :
    substituteNode props seen (.function name args) =
      ([.function name (substituteAll props seen args).1], (substituteAll props seen args).2) := by
  rw [function, substituteNode_branch hn, substituteAll_parens]
  rfl

theorem substitute_function (name : String) (args : List Node) :
    substitute props (.function name args) = .function name (substituteAll props [] args).1 := by
  rw [function, substitute, substituteAll_parens]
  rfl

end

/-! ## The names in the calls of a node -/

namespace Node

/-- The name that the node itself refers to as a `var` call. -/
def ownVariableName (n : Node) : List String :=
  if n.isVariable then n.variableName?.toList else []

mutual

/-- The names in the `var` calls of a node, the node included. -/
def variableNames : Node → List String
  | leaf h => (leaf h).ownVariableName
  | branch h cs => (branch h cs).ownVariableName ++ variableNamesAmong cs

def variableNamesAmong : List Node → List String
  | [] => []
  | n :: ns => n.variableNames ++ variableNamesAmong ns

end

theorem mem_variableNamesAmong {name : String} {nodes : List Node} :
    name ∈ variableNamesAmong nodes ↔ ∃ n ∈ nodes, name ∈ n.variableNames := by
  induction nodes with
  | nil => simp [variableNamesAmong]
  | cons n nodes ih => simp [variableNamesAmong, ih]

theorem variableNames_eq (n : Node) :
    n.variableNames = n.ownVariableName ++ variableNamesAmong n.children := by
  cases n with
  | leaf h => simp [variableNames, variableNamesAmong, children]
  | branch h cs => simp [variableNames, children]

/-- A name that a node mentions in no call is not mentioned below it. -/
theorem not_mem_children {name : String} {n : Node} (h : name ∉ n.variableNames) :
    name ∉ variableNamesAmong n.children := by
  intro hmem
  apply h
  rw [variableNames_eq]
  exact List.mem_append_right _ hmem

theorem mem_children_of_mem_fallback {call m : Node} {nodes : List Node}
    (h : call.fallback? = some nodes) (hm : m ∈ nodes) : m ∈ call.children := by
  unfold fallback? at h
  split at h
  · next comma rest hdrop =>
    cases h
    have hmem : m ∈ (inner call.children).dropWhile fun c => c.kind != .comma := by
      rw [hdrop]
      exact List.mem_cons_of_mem _ hm
    exact mem_of_mem_inner ((List.dropWhile_sublist _).subset hmem)
  · cases h

theorem not_mem_fallback {name : String} {call : Node} {nodes : List Node}
    (h : name ∉ call.variableNames) (hfall : call.fallback? = some nodes) :
    name ∉ variableNamesAmong nodes := by
  intro hmem
  obtain ⟨m, hm, hname⟩ := mem_variableNamesAmong.mp hmem
  exact not_mem_children h
    (mem_variableNamesAmong.mpr ⟨m, mem_children_of_mem_fallback hfall hm, hname⟩)

theorem ne_of_not_mem {name k : String} {call : Node} (hcall : call.isVariable)
    (hk : call.variableName? = some k) (h : name ∉ call.variableNames) : k ≠ name := by
  rintro rfl
  apply h
  rw [variableNames_eq, ownVariableName, if_pos hcall, hk]
  simp

end Node

/-! ## Properties that differ in one name -/

/-- Two lists of properties give the same values to all names but one, and no such value mentions
that one. -/
structure Properties.AgreeOff (name : String) (props props' : Properties) : Prop where
  lookup_eq : ∀ k, k ≠ name → props'.lookup k = props.lookup k
  not_mentioned : ∀ k value, k ≠ name → props.lookup k = some value → name ∉ value.variableNames

section

variable {name : String} {props props' : Properties}

/-- What does not mention the name is replaced alike, and so is what it expands to.  The induction
is on the expansion, because the value of a property is no part of its call. -/
theorem substitute_congr_aux (hprops : AgreeOff name props props') :
    (∀ (seen : List String) (n : Node), name ∉ n.variableNames →
      substituteNode props' seen n = substituteNode props seen n) ∧
    ∀ (seen : List String) (ns : List Node), name ∉ variableNamesAmong ns →
      substituteAll props' seen ns = substituteAll props seen ns := by
  refine substituteNode.mutual_induct props
    (fun seen n => name ∉ n.variableNames →
      substituteNode props' seen n = substituteNode props seen n)
    (fun seen ns => name ∉ variableNamesAmong ns →
      substituteAll props' seen ns = substituteAll props seen ns)
    ?malformed ?seen ?defined ?fallback ?undefined ?leaf ?branch ?nil ?cons
  case malformed =>
    intro seen n hn hname _
    rw [substituteNode_of_malformed hn hname, substituteNode_of_malformed hn hname]
  case seen =>
    intro seen n hn k hk hseen _
    rw [substituteNode_of_seen hn hk hseen, substituteNode_of_seen hn hk hseen]
  case defined =>
    intro seen n hn k hk hseen value hdef ih hfree
    have hne := ne_of_not_mem hn hk hfree
    have hdef' := (hprops.lookup_eq k hne).trans hdef
    rw [substituteNode_of_defined hn hk hseen hdef, substituteNode_of_defined hn hk hseen hdef',
      ih (not_mem_children (hprops.not_mentioned k value hne hdef))]
  case fallback =>
    intro seen n hn k hk hseen hdef nodes hfall ih hfree
    have hdef' := (hprops.lookup_eq k (ne_of_not_mem hn hk hfree)).trans hdef
    rw [substituteNode_of_fallback hn hk hseen hdef hfall,
      substituteNode_of_fallback hn hk hseen hdef' hfall, ih (not_mem_fallback hfree hfall)]
  case undefined =>
    intro seen n hn k hk hseen hdef hfall hfree
    have hdef' := (hprops.lookup_eq k (ne_of_not_mem hn hk hfree)).trans hdef
    rw [substituteNode_of_undefined hn hk hseen hdef hfall,
      substituteNode_of_undefined hn hk hseen hdef' hfall]
  case leaf =>
    intro seen h hn _
    rw [substituteNode_leaf hn, substituteNode_leaf hn]
  case branch =>
    intro seen h cs _ _ _ hn ih hfree
    rw [substituteNode_branch hn, substituteNode_branch hn, ih (not_mem_children hfree)]
  case nil =>
    intro seen _
    rw [substituteAll, substituteAll]
  case cons =>
    intro seen n ns _ _ _ _ _ _ ihn ihns hfree
    simp only [variableNamesAmong, List.mem_append, not_or] at hfree
    rw [substituteAll_cons, substituteAll_cons, ihn hfree.1, ihns hfree.2]

theorem substituteAll_congr (hprops : AgreeOff name props props') (seen : List String)
    {ns : List Node} (h : name ∉ variableNamesAmong ns) :
    substituteAll props' seen ns = substituteAll props seen ns :=
  (substitute_congr_aux hprops).2 seen ns h

theorem substitute_congr (hprops : AgreeOff name props props') {n : Node}
    (h : name ∉ n.variableNames) : substitute props' n = substitute props n := by
  cases n with
  | leaf head => rfl
  | branch head cs =>
    have hcs : name ∉ variableNamesAmong cs := not_mem_children h
    rw [substitute, substitute, substituteAll_congr hprops [] hcs]

end

end ColorMod
