import ColorMod.Stylesheet
import ColorMod.Proofs.Calls
import ColorMod.Proofs.Expansion
import ColorMod.Proofs.Spaces

/-!
# Variables in trees with and without spaces

A `var` call refers to the same name without the spaces in it, and stands for the same nodes but for
the spaces in them.  A fallback keeps its spaces, yet those at its ends are cut off, so substitution
and leaving out spaces can be done in either order.

* `Node.Delimited.source?_unspaced`: what a call stands for.
* `substitute_unspaced_aux`, `unspaced_substitute`: substitution.
* `Node.DelimitedRoot.unspaced_mapCalls`: substitution in the calls of a whole value.
-/

namespace ColorMod

namespace Node

/-! ## Variables -/

@[simp] theorem isVariable_unspaced (n : Node) : n.unspaced.isVariable = n.isVariable :=
  n.isFunctionNamed_unspaced _

@[simp] theorem isCall_unspaced (n : Node) : n.unspaced.isCall = n.isCall :=
  n.isFunctionNamed_unspaced _

theorem Delimited.variableName?_unspaced {n : Node} (hn : n.Delimited) :
    n.unspaced.variableName? = n.variableName? := by
  rw [variableName?, hn.arguments_unspaced, variableName?]
  cases n.arguments with
  | nil => rfl
  | cons arg args => simp only [List.map_cons, kind_unspaced, value_unspaced]

theorem dropWhile_unspacedAll (cs : List Node) :
    (unspacedAll cs).dropWhile (fun c => c.kind != .comma) =
      unspacedAll (cs.dropWhile fun c => c.kind != .comma) := by
  induction cs with
  | nil => rfl
  | cons c cs ih =>
    by_cases hspace : c.kind = .space
    · rw [unspacedAll_cons_space hspace, ih, List.dropWhile_cons_of_pos (by simp [hspace])]
    · by_cases hcomma : c.kind = .comma
      · rw [unspacedAll_cons hspace, List.dropWhile_cons_of_neg (by simp [hcomma]),
          List.dropWhile_cons_of_neg (by simp [hcomma]), unspacedAll_cons hspace]
      · rw [unspacedAll_cons hspace, List.dropWhile_cons_of_pos (by simp [hcomma]), ih,
          List.dropWhile_cons_of_pos (by simp [hcomma])]

/-- A fallback keeps its nodes but for the spaces. -/
theorem Delimited.fallback?_unspaced {n : Node} (hn : n.Delimited) :
    n.unspaced.fallback? = n.fallback?.map unspacedAll := by
  rw [fallback?, hn.inner_unspaced, dropWhile_unspacedAll, fallback?]
  have hhead := List.head?_dropWhile_not (fun c : Node => c.kind != .comma) (inner n.children)
  cases hdrop : (inner n.children).dropWhile fun c => c.kind != .comma with
  | nil => rfl
  | cons comma rest =>
    have hcomma : comma.kind = .comma := by simpa [hdrop] using hhead
    rw [unspacedAll_cons (by rw [hcomma]; decide)]
    rfl

theorem unspacedAll_dropWhile_space (ns : List Node) :
    unspacedAll (ns.dropWhile fun c => c.kind == .space) = unspacedAll ns := by
  induction ns with
  | nil => rfl
  | cons n ns ih =>
    by_cases h : n.kind = .space
    · rw [List.dropWhile_cons_of_pos (by simp [h]), ih, unspacedAll_cons_space h]
    · rw [List.dropWhile_cons_of_neg (by simp [h])]

theorem unspacedAll_reverse (ns : List Node) :
    unspacedAll ns.reverse = (unspacedAll ns).reverse := by
  simp only [unspacedAll_eq_map, List.filter_reverse, List.map_reverse]

/-- Spaces at the ends do not count. -/
theorem unspacedAll_trimSpaces (ns : List Node) : unspacedAll (trimSpaces ns) = unspacedAll ns := by
  rw [trimSpaces, unspacedAll_reverse, unspacedAll_dropWhile_space, unspacedAll_reverse,
    List.reverse_reverse, unspacedAll_dropWhile_space]

theorem dropWhile_space_unspacedAll (ns : List Node) :
    (unspacedAll ns).dropWhile (fun c => c.kind == .space) = unspacedAll ns := by
  induction ns with
  | nil => rfl
  | cons n ns ih =>
    by_cases h : n.kind = .space
    · rw [unspacedAll_cons_space h, ih]
    · rw [unspacedAll_cons h, List.dropWhile_cons_of_neg (by simp [h])]

/-- Nodes without spaces have none at the ends. -/
theorem trimSpaces_unspacedAll (ns : List Node) :
    trimSpaces (unspacedAll ns) = unspacedAll ns := by
  rw [trimSpaces, dropWhile_space_unspacedAll, ← unspacedAll_reverse, dropWhile_space_unspacedAll,
    unspacedAll_reverse, List.reverse_reverse]

end Node

open Node

/-! ## Substitution -/

/-- The properties without the spaces in their values. -/
def Properties.unspaced (props : Properties) : Properties :=
  props.map fun p => (p.1, p.2.unspaced)

/-- The values of the properties are whole values. -/
def Properties.Delimited (props : Properties) : Prop :=
  ∀ p ∈ props, p.2.DelimitedRoot

theorem Properties.Delimited.of_lookup {props : Properties} (hprops : props.Delimited)
    {name : String} {value : Node} (h : props.lookup name = some value) : value.DelimitedRoot := by
  obtain ⟨before, after, rfl, -⟩ := List.lookup_eq_some_iff.mp h
  exact hprops (name, value) (by simp)

theorem Properties.lookup_unspaced (props : Properties) (name : String) :
    props.unspaced.lookup name = (props.lookup name).map Node.unspaced := by
  induction props with
  | nil => rfl
  | cons p props ih =>
    rw [unspaced, List.map_cons, List.lookup_cons, List.lookup_cons]
    cases name == p.1 with
    | true => rfl
    | false => exact ih

/-- What a call stands for, but for the spaces in it. -/
theorem Node.Delimited.source?_unspaced {props : Properties} {call : Node} (hcall : call.Delimited) :
    call.unspaced.source? props.unspaced = (call.source? props).map unspacedAll := by
  rw [source?, hcall.variableName?_unspaced, source?, Option.map_bind]
  congr 1
  funext name
  simp only [Function.comp_apply, Properties.lookup_unspaced]
  cases props.lookup name with
  | none => exact hcall.fallback?_unspaced
  | some value => exact congrArg some value.children_unspaced

/-- A call stands for nodes with their parentheses. -/
theorem Node.Delimited.source? {props : Properties} (hprops : props.Delimited) {call : Node}
    (hcall : call.Delimited) {nodes : List Node} (h : call.source? props = some nodes) :
    ∀ n ∈ nodes, n.Delimited := by
  rw [Node.source?] at h
  obtain ⟨name, -, h⟩ := Option.bind_eq_some_iff.mp h
  split at h
  · next value hvalue =>
    cases h
    exact (hprops.of_lookup hvalue).children
  · exact fun n hn => hcall.children n (mem_children_of_mem_fallback h hn)

/-- The nodes without the spaces in them, and the same end. -/
def Substituted.unspaced (expanded : Substituted) : Substituted :=
  (unspacedAll expanded.1, expanded.2)

theorem Substituted.orKeep_unspaced {call : Node} (hcall : call.kind ≠ .space)
    (expanded : Substituted) :
    expanded.unspaced.orKeep call.unspaced = (expanded.orKeep call).unspaced := by
  obtain ⟨nodes, ok⟩ := expanded
  cases ok with
  | true =>
    have htrim := (trimSpaces_unspacedAll nodes).trans (unspacedAll_trimSpaces nodes).symm
    exact congrArg (·, true) htrim
  | false => exact congrArg (·, false) (unspacedAll_cons hcall []).symm

section

variable {props : Properties}

/-- Substitution keeps the parentheses of functions. -/
theorem delimited_substitute_aux (hprops : props.Delimited) :
    (∀ (seen : List String) (n : Node), n.Delimited →
      ∀ m ∈ (substituteNode props seen n).1, m.Delimited) ∧
    ∀ (seen : List String) (ns : List Node), (∀ n ∈ ns, n.Delimited) →
      ∀ m ∈ (substituteAll props seen ns).1, m.Delimited := by
  refine substitute_induction props ?stuck ?seen ?source ?leaf ?branch ?nil ?cons
  case stuck =>
    intro seen call hcall hsource hseen hd
    rw [substituteNode_of_stuck hcall hsource hseen]
    exact List.forall_mem_singleton.mpr hd
  case seen =>
    intro seen call name hcall hname hseen hd
    rw [substituteNode_of_seen hcall hname hseen]
    exact List.forall_mem_singleton.mpr hd
  case source =>
    intro seen call name nodes hcall hname hseen hsource ih hd
    rw [substituteNode_of_source hcall hname hseen hsource]
    have hnodes := ih (hd.source? hprops hsource)
    generalize substituteAll props (name :: seen) nodes = expanded at hnodes
    obtain ⟨expanded, ok⟩ := expanded
    cases ok with
    | true => exact fun m hm => hnodes m (trimSpaces_subset expanded hm)
    | false => exact List.forall_mem_singleton.mpr hd
  case leaf =>
    intro seen h hn hd
    rw [substituteNode_leaf hn]
    exact List.forall_mem_singleton.mpr hd
  case branch =>
    intro seen h cs hn ih hd
    have hcs := ih hd.children
    rw [substituteNode_branch hn]
    cases hd with
    | function hkind hargs =>
      rw [substituteAll_parens] at hcs ⊢
      exact List.forall_mem_singleton.mpr (.function hkind (forall_delimited_parens.mp hcs))
  case nil =>
    intro seen _
    rw [substituteAll]
    exact fun m hm => (by cases hm)
  case cons =>
    intro seen n ns ihn ihns hd
    obtain ⟨hn, hns⟩ := List.forall_mem_cons.mp hd
    rw [substituteAll_cons]
    exact List.forall_mem_append.mpr ⟨ihn hn, ihns hns⟩

/-- Substitution and leaving out the spaces can be done in either order. -/
theorem substitute_unspaced_aux (hprops : props.Delimited) :
    (∀ (seen : List String) (n : Node), n.Delimited → n.kind ≠ .space →
      substituteNode props.unspaced seen n.unspaced = (substituteNode props seen n).unspaced) ∧
    ∀ (seen : List String) (ns : List Node), (∀ n ∈ ns, n.Delimited) →
      substituteAll props.unspaced seen (unspacedAll ns) = (substituteAll props seen ns).unspaced := by
  refine substitute_induction props ?stuck ?seen ?source ?leaf ?branch ?nil ?cons
  case stuck =>
    intro seen call hcall hsource hseen hd hspace
    have hcall' : call.unspaced.isVariable := call.isVariable_unspaced.symm ▸ hcall
    have hsource' : call.unspaced.source? props.unspaced = none := by
      rw [hd.source?_unspaced, hsource, Option.map_none]
    have hseen' : ∀ name ∈ seen, call.unspaced.variableName? ≠ some name := by
      rwa [hd.variableName?_unspaced]
    rw [substituteNode_of_stuck hcall hsource hseen,
      substituteNode_of_stuck hcall' hsource' hseen']
    exact congrArg (·, true) (unspacedAll_cons hspace []).symm
  case seen =>
    intro seen call name hcall hname hseen hd hspace
    have hcall' : call.unspaced.isVariable := call.isVariable_unspaced.symm ▸ hcall
    have hname' := hd.variableName?_unspaced.trans hname
    rw [substituteNode_of_seen hcall hname hseen, substituteNode_of_seen hcall' hname' hseen]
    exact congrArg (·, false) (unspacedAll_cons hspace []).symm
  case source =>
    intro seen call name nodes hcall hname hseen hsource ih hd hspace
    have hcall' : call.unspaced.isVariable := call.isVariable_unspaced.symm ▸ hcall
    have hname' := hd.variableName?_unspaced.trans hname
    have hsource' : call.unspaced.source? props.unspaced = some (unspacedAll nodes) := by
      rw [hd.source?_unspaced, hsource, Option.map_some]
    rw [substituteNode_of_source hcall hname hseen hsource,
      substituteNode_of_source hcall' hname' hseen hsource', ih (hd.source? hprops hsource),
      Substituted.orKeep_unspaced hspace]
  case leaf =>
    intro seen h hn hd hspace
    rw [unspaced, substituteNode_leaf hn, substituteNode_leaf hn]
    exact congrArg (·, true) (unspacedAll_cons hspace []).symm
  case branch =>
    intro seen h cs hn ih hd hspace
    have hn' : ¬(branch h (unspacedAll cs)).isVariable := hn
    have hspace' : (branch h (substituteAll props seen cs).1).kind ≠ .space := hspace
    rw [unspaced, substituteNode_branch hn, substituteNode_branch hn', ih hd.children]
    exact congrArg (·, _) (unspacedAll_cons hspace' []).symm
  case nil =>
    intro seen _
    rw [unspacedAll, substituteAll, substituteAll]
    rfl
  case cons =>
    intro seen n ns ihn ihns hd
    obtain ⟨hn, hns⟩ := List.forall_mem_cons.mp hd
    by_cases hspace : n.kind = .space
    · -- a space stays where it is
      have hleaf := hn.eq_leaf_of_space hspace
      have hvariable : ¬(leaf n.head).isVariable := by
        rw [← hleaf]
        simp [isVariable, isFunctionNamed, isFunction, hspace]
      have hkeep : substituteNode props seen n = ([n], true) := by
        rw [hleaf]
        exact substituteNode_leaf hvariable
      rw [unspacedAll_cons_space hspace, ihns hns, substituteAll_cons, hkeep]
      exact congrArg (·, _) (unspacedAll_cons_space hspace _).symm
    · rw [unspacedAll_cons hspace, substituteAll_cons, substituteAll_cons, ihn hn hspace, ihns hns]
      exact congrArg (·, _) (unspacedAll_append _ _).symm

/-- In a call the variables give way to the same nodes, but for the spaces in them. -/
theorem unspaced_substitute (hprops : props.Delimited) {n : Node} (hn : n.Delimited) :
    (substitute props n).unspaced = substitute props.unspaced n.unspaced := by
  cases n with
  | leaf h => rfl
  | branch h cs =>
    have hcs := (substitute_unspaced_aux hprops).2 [] cs hn.children
    exact congrArg (fun expanded : Substituted => branch h expanded.1) hcs.symm

theorem delimited_substitute (hprops : props.Delimited) {n : Node} (hn : n.Delimited) :
    (substitute props n).Delimited := by
  cases hn with
  | leaf h => exact .leaf h
  | function hkind hargs =>
    rw [substitute, substituteAll_parens]
    exact .function hkind ((delimited_substitute_aux hprops).2 [] _ hargs)

end

/-! ## Calls -/

namespace Node

/-- The node with the variables in the calls in it replaced. -/
def expandCalls (props : Properties) (c : Node) : Node :=
  if c.isCall then substitute props c else c.mapCalls (substitute props)

theorem mapCallsAmong_eq_map (props : Properties) (cs : List Node) :
    mapCallsAmong (substitute props) cs = cs.map (expandCalls props) := by
  induction cs with
  | nil => rfl
  | cons c cs ih => rw [mapCallsAmong, ih]; rfl

theorem expandCalls_leaf (props : Properties) (h : Head) :
    (leaf h).expandCalls props = leaf h := by
  unfold expandCalls
  split <;> rfl

theorem mapCalls_branch (props : Properties) (h : Head) (cs : List Node) :
    (branch h cs).mapCalls (substitute props) = branch h (cs.map (expandCalls props)) := by
  rw [mapCalls, mapCallsAmong_eq_map]

theorem head_expandCalls (props : Properties) (c : Node) :
    (c.expandCalls props).head = c.head := by
  unfold expandCalls
  split
  · cases c <;> rfl
  · cases c <;> rfl

theorem unspacedAll_map {f g : Node → Node} {cs : List Node} (hkind : ∀ c, (f c).kind = c.kind)
    (h : ∀ c ∈ cs, (f c).unspaced = g c.unspaced) :
    unspacedAll (cs.map f) = (unspacedAll cs).map g := by
  induction cs with
  | nil => rfl
  | cons c cs ih =>
    obtain ⟨hc, hcs⟩ := List.forall_mem_cons.mp h
    by_cases hspace : c.kind = .space
    · rw [List.map_cons, unspacedAll_cons_space ((hkind c).trans hspace), ih hcs,
        unspacedAll_cons_space hspace]
    · have hspace' : (f c).kind ≠ .space := (hkind c).symm ▸ hspace
      rw [List.map_cons, unspacedAll_cons hspace', hc, ih hcs, unspacedAll_cons hspace,
        List.map_cons]

section

variable {props : Properties}

theorem unspaced_branch_expandCalls {h : Head} {cs : List Node}
    (hcs : ∀ c ∈ cs, (c.expandCalls props).unspaced = c.unspaced.expandCalls props.unspaced) :
    ((branch h cs).mapCalls (substitute props)).unspaced =
      (branch h cs).unspaced.mapCalls (substitute props.unspaced) := by
  have hmap := unspacedAll_map (fun c => congrArg Head.kind (c.head_expandCalls props)) hcs
  rw [mapCalls_branch, unspaced, unspaced, mapCalls_branch, hmap]

theorem delimited_mapCalls_parens {h : Head} {args : List Node} (hkind : h.kind = .function)
    (hargs : ∀ a ∈ args, (a.expandCalls props).Delimited) :
    ((branch h (paren "(" :: args ++ [paren ")"])).mapCalls (substitute props)).Delimited := by
  have hmap : (paren "(" :: args ++ [paren ")"]).map (expandCalls props) =
      paren "(" :: args.map (expandCalls props) ++ [paren ")"] := by
    rw [List.map_append, List.map_cons]
    rfl
  rw [mapCalls_branch, hmap]
  exact .function hkind (List.forall_mem_map.mpr hargs)

/-- Replacing the variables in calls and leaving out the spaces can be done in either order. -/
theorem Delimited.unspaced_expandCalls (hprops : props.Delimited) {n : Node} (hn : n.Delimited) :
    (n.expandCalls props).unspaced = n.unspaced.expandCalls props.unspaced := by
  induction hn with
  | leaf h => rw [expandCalls_leaf, unspaced, expandCalls_leaf]
  | function hkind hargs ih =>
    unfold expandCalls
    rw [isCall_unspaced]
    split
    · exact unspaced_substitute hprops (.function hkind hargs)
    · exact unspaced_branch_expandCalls ((forall_mem_parens fun _ => rfl).mpr ih)

theorem Delimited.expandCalls (hprops : props.Delimited) {n : Node} (hn : n.Delimited) :
    (n.expandCalls props).Delimited := by
  induction hn with
  | leaf h =>
    rw [expandCalls_leaf]
    exact .leaf h
  | function hkind hargs ih =>
    unfold Node.expandCalls
    split
    · exact delimited_substitute hprops (.function hkind hargs)
    · exact delimited_mapCalls_parens hkind ih

/-- The same for the calls of a whole value. -/
theorem DelimitedRoot.unspaced_mapCalls (hprops : props.Delimited) {n : Node}
    (hn : n.DelimitedRoot) :
    (n.mapCalls (substitute props)).unspaced =
      n.unspaced.mapCalls (substitute props.unspaced) := by
  cases n with
  | leaf h => rfl
  | branch h cs =>
    exact unspaced_branch_expandCalls fun c hc => (hn.children c hc).unspaced_expandCalls hprops

theorem DelimitedRoot.mapCalls (hprops : props.Delimited) {n : Node} (hn : n.DelimitedRoot) :
    (n.mapCalls (substitute props)).DelimitedRoot := by
  cases hn with
  | root hkind hcs =>
    rw [mapCalls_branch]
    exact .root hkind (List.forall_mem_map.mpr fun c hc => (hcs c hc).expandCalls hprops)
  | delimited hn =>
    cases hn with
    | leaf h => exact .delimited (.leaf h)
    | function hkind hargs =>
      exact .delimited (delimited_mapCalls_parens hkind fun a ha => (hargs a ha).expandCalls hprops)

end

end Node

end ColorMod
