import ColorMod.Proofs.References

/-!
# Substitution is full inlining

Full inlining (`Inlines`) knows nothing of names that are being expanded: each call gives way to
what it stands for, inlined in its turn.  It has one result at most, and none for a call at which a
defined name recurs.  Substitution finds that result unless some name recurs, and then the outermost
call stays.

* `Inlines.unique`, `Inlines.referencesEnd`, `exists_inlines_of_referencesEnd`: what can be inlined,
  and that in one way.
* `substitute_inlines`: substitution against inlining, if no undefined name recurs.
* `expansion_of_undefined`: what becomes of an undefined name that recurs.
-/

namespace ColorMod

open Node Relation

/-- Nodes with the calls in them inlined. -/
inductive Inlines (props : Properties) : List Node → List Node → Prop where
  | nil : Inlines props [] []
  /-- A call that stands for something gives way to that. -/
  | expanded {call : Node} {nodes inlined rest rest' : List Node} (hcall : call.isVariable)
      (hsource : call.source? props = some nodes) (h : Inlines props nodes inlined)
      (hrest : Inlines props rest rest') :
      Inlines props (call :: rest) (trimSpaces inlined ++ rest')
  /-- A call that stands for nothing stays. -/
  | stuck {call : Node} {rest rest' : List Node} (hcall : call.isVariable)
      (hsource : call.source? props = none) (hrest : Inlines props rest rest') :
      Inlines props (call :: rest) (call :: rest')
  | leaf {h : Head} {rest rest' : List Node} (hleaf : ¬(Node.leaf h).isVariable)
      (hrest : Inlines props rest rest') : Inlines props (.leaf h :: rest) (.leaf h :: rest')
  | branch {h : Head} {cs cs' rest rest' : List Node} (hbranch : ¬(Node.branch h cs).isVariable)
      (hcs : Inlines props cs cs') (hrest : Inlines props rest rest') :
      Inlines props (.branch h cs :: rest) (.branch h cs' :: rest')

namespace Inlines

variable {props : Properties} {ns ms : List Node}

/-- Inlining has one result at most. -/
theorem unique {ms' : List Node} (h : Inlines props ns ms) (h' : Inlines props ns ms') :
    ms = ms' := by
  induction h generalizing ms' with
  | nil => cases h'; rfl
  | expanded hcall hsource _ _ ih ihrest =>
    cases h' with
    | expanded _ hsource' h' hrest' =>
      rw [hsource] at hsource'
      cases hsource'
      rw [ih h', ihrest hrest']
    | stuck _ hsource' _ => rw [hsource] at hsource'; cases hsource'
    | leaf hleaf _ => exact absurd hcall hleaf
    | branch hbranch _ _ => exact absurd hcall hbranch
  | stuck hcall hsource _ ihrest =>
    cases h' with
    | expanded _ hsource' _ _ => rw [hsource] at hsource'; cases hsource'
    | stuck _ _ hrest' => rw [ihrest hrest']
    | leaf hleaf _ => exact absurd hcall hleaf
    | branch hbranch _ _ => exact absurd hcall hbranch
  | leaf hleaf _ ihrest =>
    cases h' with
    | expanded hcall _ _ _ => exact absurd hcall hleaf
    | stuck hcall _ _ => exact absurd hcall hleaf
    | leaf _ hrest' => rw [ihrest hrest']
  | branch hbranch _ _ ih ihrest =>
    cases h' with
    | expanded hcall _ _ _ => exact absurd hcall hbranch
    | stuck hcall _ _ => exact absurd hcall hbranch
    | branch _ hcs' hrest' => rw [ih hcs', ihrest hrest']

theorem iff_eq (h : Inlines props ns ms) (ms' : List Node) : Inlines props ns ms' ↔ ms' = ms :=
  ⟨fun h' => h'.unique h, fun heq => heq ▸ h⟩

/-- The calls that inlining leaves stand for nothing. -/
theorem source?_eq_none (h : Inlines props ns ms) :
    ∀ call ∈ variablesAmong ms, call.source? props = none := by
  induction h with
  | nil => simp [variablesAmong]
  | expanded _ _ _ _ ih ihrest =>
    intro call hcall
    rw [variablesAmong_append, List.mem_append] at hcall
    exact hcall.elim (fun h => ih call (variablesAmong_trimSpaces_subset _ h)) (ihrest call)
  | stuck hcall hsource _ ihrest =>
    rw [variablesAmong_cons, variablesAmong_of_isVariable hcall]
    exact List.forall_mem_cons.mpr ⟨hsource, ihrest⟩
  | leaf hleaf _ ihrest =>
    rw [variablesAmong_cons, variablesAmong_leaf hleaf]
    exact ihrest
  | branch hbranch _ _ ih ihrest =>
    rw [variablesAmong_cons, variablesAmong_branch hbranch]
    exact List.forall_mem_append.mpr ⟨ih, ihrest⟩

/-- The references from the calls in what can be inlined end. -/
theorem referencesEnd (h : Inlines props ns ms) :
    ∀ call ∈ variablesAmong ns, ReferencesEnd props call := by
  induction h with
  | nil => simp [variablesAmong]
  | @expanded call nodes inlined rest rest' hcall hsource _ _ ih ihrest =>
    rw [variablesAmong_cons, variablesAmong_of_isVariable hcall]
    refine List.forall_mem_cons.mpr ⟨Acc.intro call fun call' href => ?_, ihrest⟩
    obtain ⟨nodes', hnodes', hcall'⟩ := href
    rw [hsource] at hnodes'
    cases hnodes'
    exact ih call' hcall'
  | @stuck call rest rest' hcall hsource _ ihrest =>
    rw [variablesAmong_cons, variablesAmong_of_isVariable hcall]
    refine List.forall_mem_cons.mpr ⟨Acc.intro call fun call' href => ?_, ihrest⟩
    exact absurd href (not_refers_of_source?_eq_none hsource)
  | leaf hleaf _ ihrest =>
    rw [variablesAmong_cons, variablesAmong_leaf hleaf]
    exact ihrest
  | branch hbranch _ _ ih ihrest =>
    rw [variablesAmong_cons, variablesAmong_branch hbranch]
    exact List.forall_mem_append.mpr ⟨ih, ihrest⟩

/-- A call that inlining goes through has an inlining of what it stands for. -/
theorem of_singleton {call : Node} {nodes : List Node} (hcall : call.isVariable)
    (hsource : call.source? props = some nodes) (h : Inlines props [call] ms) :
    ∃ inlined, Inlines props nodes inlined ∧ ms = trimSpaces inlined := by
  cases h with
  | expanded _ hsource' h hrest =>
    rw [hsource] at hsource'
    cases hsource'
    cases hrest
    exact ⟨_, h, List.append_nil _⟩
  | stuck _ hsource' _ => rw [hsource] at hsource'; cases hsource'
  | leaf hleaf _ => exact absurd hcall hleaf
  | branch hbranch _ _ => exact absurd hcall hbranch

end Inlines

/-! ## What can be inlined -/

section

variable {props : Properties}

mutual

/-- A node and the ones after it can be inlined when what the calls in it stand for can be. -/
theorem exists_inlines_cons : ∀ (n : Node) {rest rest' : List Node},
    (∀ call ∈ variablesAmong [n], ∀ nodes, call.source? props = some nodes →
      ∃ inlined, Inlines props nodes inlined) →
    Inlines props rest rest' → ∃ ms, Inlines props (n :: rest) ms
  | n, rest, rest', hcalls, hrest => by
    by_cases hn : n.isVariable
    · rw [variablesAmong_of_isVariable hn, List.forall_mem_singleton] at hcalls
      cases hsource : n.source? props with
      | none => exact ⟨_, .stuck hn hsource hrest⟩
      | some nodes =>
        obtain ⟨inlined, h⟩ := hcalls nodes hsource
        exact ⟨_, .expanded hn hsource h hrest⟩
    · cases n with
      | leaf h => exact ⟨_, .leaf hn hrest⟩
      | branch h cs =>
        rw [variablesAmong_branch hn] at hcalls
        obtain ⟨cs', hcs⟩ := exists_inlines_of_calls cs hcalls
        exact ⟨_, .branch hn hcs hrest⟩

theorem exists_inlines_of_calls : ∀ ns : List Node,
    (∀ call ∈ variablesAmong ns, ∀ nodes, call.source? props = some nodes →
      ∃ inlined, Inlines props nodes inlined) →
    ∃ ms, Inlines props ns ms
  | [], _ => ⟨[], .nil⟩
  | n :: ns, hcalls => by
    rw [variablesAmong_cons, List.forall_mem_append] at hcalls
    obtain ⟨ms, hms⟩ := exists_inlines_of_calls ns hcalls.2
    exact exists_inlines_cons n hcalls.1 hms

end

/-- What a call stands for can be inlined when the references from the call end. -/
theorem exists_inlines_of_referencesEnd {call : Node} (hend : ReferencesEnd props call) :
    ∀ nodes, call.source? props = some nodes → ∃ inlined, Inlines props nodes inlined := by
  induction hend with
  | intro call _ ih =>
    intro nodes hsource
    exact exists_inlines_of_calls nodes fun call' hcall' => ih call' ⟨nodes, hsource, hcall'⟩

end

/-! ## Substitution and inlining -/

theorem inlines_orKeep {props : Properties} {call : Node} {nodes rest rest' : List Node}
    {expanded : Substituted} (hcall : call.isVariable) (hsource : call.source? props = some nodes)
    (hexpanded : expanded.2 → Inlines props nodes expanded.1) (hok : (expanded.orKeep call).2)
    (hrest : Inlines props rest rest') :
    Inlines props (call :: rest) ((expanded.orKeep call).1 ++ rest') := by
  rw [Substituted.orKeep_snd] at hok
  obtain ⟨inlined, ok⟩ := expanded
  cases hok
  exact .expanded hcall hsource (hexpanded rfl) hrest

/-- A substitution that comes to its end inlines, whichever names were being expanded. -/
theorem inlines_substitute_aux (props : Properties) :
    (∀ (seen : List String) (n : Node), (substituteNode props seen n).2 →
      ∀ rest rest', Inlines props rest rest' →
        Inlines props (n :: rest) ((substituteNode props seen n).1 ++ rest')) ∧
    ∀ (seen : List String) (ns : List Node), (substituteAll props seen ns).2 →
      Inlines props ns (substituteAll props seen ns).1 := by
  refine substitute_induction props ?stuck ?seen ?source ?leaf ?branch ?nil ?cons
  case stuck =>
    intro seen call hcall hsource hseen _ rest rest' hrest
    rw [substituteNode_of_stuck hcall hsource hseen]
    exact .stuck hcall hsource hrest
  case seen =>
    intro seen call name hcall hname hseen hok
    rw [substituteNode_of_seen hcall hname hseen] at hok
    cases hok
  case source =>
    intro seen call name nodes hcall hname hseen hsource ih hok rest rest' hrest
    rw [substituteNode_of_source hcall hname hseen hsource] at hok ⊢
    exact inlines_orKeep hcall hsource ih hok hrest
  case leaf =>
    intro seen h hn _ rest rest' hrest
    rw [substituteNode_leaf hn]
    exact .leaf hn hrest
  case branch =>
    intro seen h cs hn ih hok rest rest' hrest
    rw [substituteNode_branch hn] at hok ⊢
    exact .branch hn (ih hok) hrest
  case nil =>
    intro seen _
    rw [substituteAll]
    exact .nil
  case cons =>
    intro seen n ns ihn ihns hok
    rw [substituteAll_cons, Bool.and_eq_true] at hok
    rw [substituteAll_cons]
    exact ihn hok.1 ns _ (ihns hok.2)

section

variable {props : Properties} {call : Node} {nodes : List Node}

/-- A call stays when a name recurs at it. -/
theorem expansion_of_recurs (hcall : call.isVariable) (h : ∃ name, Recurs props call name) :
    expansion props call = [call] := by
  cases hsource : call.source? props with
  | none => exact expansion_of_stuck hcall hsource
  | some nodes =>
    obtain ⟨name, hname, -⟩ := Option.bind_eq_some_iff.mp hsource
    have hfalse : ¬(substituteNode props [] call).2 := fun hok =>
      h.elim ((substituteNode_ok_iff hcall).mp hok)
    rw [substituteNode_of_source hcall hname List.not_mem_nil hsource,
      Substituted.orKeep_snd] at hfalse
    rw [expansion_of_source hcall hname hsource, Substituted.orKeep_of_not_ok call hfalse]

/-- Where no name recurs a call gives way to what it stands for, inlined. -/
theorem expansion_of_not_recurs (hcall : call.isVariable)
    (hsource : call.source? props = some nodes) (h : ∀ name, ¬Recurs props call name) :
    ∃ inlined, (∀ ms, Inlines props nodes ms ↔ ms = inlined) ∧
      expansion props call = trimSpaces inlined := by
  have hok := (substituteNode_ok_iff hcall).mpr h
  have hinlines := (inlines_substitute_aux props).1 [] call hok [] [] .nil
  rw [List.append_nil] at hinlines
  obtain ⟨inlined, h, hexpansion⟩ := hinlines.of_singleton hcall hsource
  exact ⟨inlined, h.iff_eq, hexpansion⟩

/-- Where a defined name recurs there is nothing that a call could give way to. -/
theorem not_inlines_of_recurs {value : Node} {name : String} (hcall : call.isVariable)
    (hdef : props.lookup name = some value) (h : Recurs props call name) (ms : List Node) :
    ¬Inlines props [call] ms := by
  intro hms
  exact not_referencesEnd_of_recurs hdef h (hms.referencesEnd call (mem_variablesAmong_self hcall))

end

/-- Substitution is full inlining: a call of a defined name gives way to the inlined value, whatever
its fallback, and a call of an undefined name to its inlined fallback.  A call stays when it has
neither, when its name is malformed, or when a defined name recurs at it.  The names that are
undefined must not recur. -/
theorem substitute_inlines (props : Properties) (tree : Node) :
    substitute props tree = tree.splice (expansion props) ∧
    ((∀ call ∈ tree.variablesBelow, ∀ name, ¬Recurs props call name) →
      Inlines props tree.children (substitute props tree).children) ∧
    ∀ call ∈ tree.variablesBelow,
      (∀ name, props.lookup name = none → ¬Recurs props call name) →
      (call.variableName? = none → expansion props call = [call]) ∧
      (∀ name, call.variableName? = some name → props.lookup name = none →
        call.fallback? = none → expansion props call = [call]) ∧
      ((∃ name value, props.lookup name = some value ∧ Recurs props call name) →
        expansion props call = [call] ∧ ∀ ms, ¬Inlines props [call] ms) ∧
      ((∀ name value, props.lookup name = some value → ¬Recurs props call name) →
        (∀ name value, call.variableName? = some name → props.lookup name = some value →
          ∃ inlined, (∀ ms, Inlines props value.children ms ↔ ms = inlined) ∧
            expansion props call = trimSpaces inlined) ∧
        ∀ name nodes, call.variableName? = some name → props.lookup name = none →
          call.fallback? = some nodes →
          ∃ inlined, (∀ ms, Inlines props nodes ms ↔ ms = inlined) ∧
            expansion props call = trimSpaces inlined) := by
  refine ⟨substitute_eq_splice props tree, ?tree, fun call hmem hundef => ?call⟩
  case tree =>
    intro hnone
    have hok : (substituteAll props [] tree.children).2 :=
      substituteAll_ok_iff.mpr (variablesBelow_eq tree ▸ hnone)
    rw [children_substitute]
    exact (inlines_substitute_aux props).2 [] tree.children hok
  case call =>
    rw [variablesBelow_eq] at hmem
    have hcall := isVariable_of_mem_variablesAmong hmem
    refine ⟨fun hname => ?malformed, fun name hname hdef hfall => ?neither, ?cycle,
      fun hdefined => ?inlined⟩
    case malformed => exact expansion_of_stuck hcall (source?_of_malformed hname)
    case neither => exact expansion_of_stuck hcall ((source?_of_undefined hname hdef).trans hfall)
    case cycle =>
      rintro ⟨name, value, hdef, h⟩
      exact ⟨expansion_of_recurs hcall ⟨name, h⟩, not_inlines_of_recurs hcall hdef h⟩
    case inlined =>
      have hnone : ∀ name, ¬Recurs props call name := by
        intro name
        cases hdef : props.lookup name with
        | some value => exact hdefined name value hdef
        | none => exact hundef name hdef
      refine ⟨fun name value hname hdef => ?_, fun name nodes hname hdef hfall => ?_⟩
      · exact expansion_of_not_recurs hcall (source?_of_defined hname hdef) hnone
      · exact expansion_of_not_recurs hcall ((source?_of_undefined hname hdef).trans hfall) hnone

/-- `var(--a)` -/
def variableA : Node :=
  .function "var" [.word "--a"]

/-- `var(--x, var(--a))` -/
def variableOrA : Node :=
  .function "var" [.word "--x", .comma, .space, variableA]

/-- With `--a: red` the fallback of an undefined name becomes `red`. -/
theorem substitute_inlines_variableOrA :
    let props : Properties := [("--a", .root [.space, .word "red", .space])]
    (∀ name, ¬Recurs props variableOrA name) ∧
    substitute props (.root [variableOrA]) = .root [.word "red"] := by
  intro props
  have hnameA : variableA.variableName? = some "--a" := rfl
  have hname : variableOrA.variableName? = some "--x" := rfl
  have hfall : variableOrA.fallback? = some [.space, variableA] := rfl
  have hdefA : props.lookup "--a" = some (.root [.space, .word "red", .space]) := rfl
  have hdef : props.lookup "--x" = none := rfl
  have hsourceA := source?_of_defined hnameA hdefA
  have hsource := (source?_of_undefined hname hdef).trans hfall
  have hnone : ∀ name, ¬Recurs props variableOrA name := by
    rw [← unrepeated_nil_iff, unrepeated_iff hname List.not_mem_nil hsource]
    have hcalls : variablesAmong [.space, variableA] = [variableA] := rfl
    rw [hcalls, List.forall_mem_singleton, unrepeated_iff hnameA (by decide) hsourceA]
    intro call hcall
    cases hcall
  have hred : Inlines props [.space, .word "red", .space] [.space, .word "red", .space] :=
    .leaf Bool.false_ne_true (.leaf Bool.false_ne_true (.leaf Bool.false_ne_true .nil))
  have hinlines : Inlines props [.space, variableA] [.space, .word "red"] :=
    .leaf Bool.false_ne_true (.expanded rfl hsourceA hred .nil)
  obtain ⟨hsplice, -, hcalls⟩ := substitute_inlines props (.root [variableOrA])
  obtain ⟨-, -, -, hinlined⟩ := hcalls variableOrA (List.mem_singleton_self _)
    fun name _ => hnone name
  obtain ⟨-, hfallback⟩ := hinlined fun name value _ => hnone name
  obtain ⟨inlined, h, hexpansion⟩ := hfallback "--x" _ hname hdef hfall
  refine ⟨hnone, ?_⟩
  rw [hsplice]
  change Node.root (expansion props variableOrA ++ []) = _
  rw [hexpansion, ← (h _).mp hinlines]
  rfl

/-- A call of an undefined name with a fallback gives way to the inlined fallback when no name
recurs.  When only undefined names recur the fallback can be inlined, in one way, and still the call
stays. -/
theorem expansion_of_undefined (props : Properties) (tree : Node) {call : Node} {name : String}
    {nodes : List Node} (hmem : call ∈ tree.variablesBelow)
    (hname : call.variableName? = some name) (hdef : props.lookup name = none)
    (hfall : call.fallback? = some nodes) :
    substitute props tree = tree.splice (expansion props) ∧
    ((∃ k value, props.lookup k = some value ∧ Recurs props call k) →
      expansion props call = [call] ∧ ∀ ms, ¬Inlines props [call] ms) ∧
    ((∀ k value, props.lookup k = some value → ¬Recurs props call k) →
      ∃ inlined, (∀ ms, Inlines props nodes ms ↔ ms = inlined) ∧
        ((∀ k, ¬Recurs props call k) → expansion props call = trimSpaces inlined) ∧
        ((∃ k, Recurs props call k) →
          expansion props call = [call] ∧ [call] ≠ trimSpaces inlined)) := by
  rw [variablesBelow_eq] at hmem
  have hcall := isVariable_of_mem_variablesAmong hmem
  have hsource : call.source? props = some nodes := (source?_of_undefined hname hdef).trans hfall
  refine ⟨substitute_eq_splice props tree, ?cycle, fun hdefined => ?acyclic⟩
  case cycle =>
    rintro ⟨k, value, hk, h⟩
    exact ⟨expansion_of_recurs hcall ⟨k, h⟩, not_inlines_of_recurs hcall hk h⟩
  case acyclic =>
    have hend := referencesEnd_of_not_recurs hdefined
    obtain ⟨inlined, hinlined⟩ := exists_inlines_of_referencesEnd hend nodes hsource
    refine ⟨inlined, hinlined.iff_eq, ?_, ?_⟩
    · intro hnone
      obtain ⟨ms, hms, hexpansion⟩ := expansion_of_not_recurs hcall hsource hnone
      rw [hexpansion, (hms inlined).mp hinlined]
    · refine fun h => ⟨expansion_of_recurs hcall h, fun heq => ?_⟩
      -- what is inlined stands for nothing, and the call does not
      have hleft : call ∈ variablesAmong (trimSpaces inlined) := heq ▸ mem_variablesAmong_self hcall
      have hstuck := hinlined.source?_eq_none call (variablesAmong_trimSpaces_subset inlined hleft)
      rw [hsource] at hstuck
      cases hstuck

/-- `var(--x, red)` -/
def variableOrRed : Node :=
  .function "var" [.word "--x", .comma, .word "red"]

/-- `var(--x, var(--x, red))` -/
def variableTwiceOrRed : Node :=
  .function "var" [.word "--x", .comma, variableOrRed]

/-- The fallback of the outer call can be inlined to `red`, but its name recurs and it stays. -/
theorem expansion_of_undefined_variableTwiceOrRed :
    variableTwiceOrRed ∈ (Node.root [variableTwiceOrRed]).variablesBelow ∧
    variableTwiceOrRed.variableName? = some "--x" ∧
    variableTwiceOrRed.fallback? = some [variableOrRed] ∧
    Inlines [] [variableOrRed] [.word "red"] ∧
    expansion [] variableTwiceOrRed = [variableTwiceOrRed] := by
  have hmem : variableTwiceOrRed ∈ (Node.root [variableTwiceOrRed]).variablesBelow :=
    List.mem_singleton_self _
  have hname : variableTwiceOrRed.variableName? = some "--x" := rfl
  have hfall : variableTwiceOrRed.fallback? = some [variableOrRed] := rfl
  have hinner : variableOrRed.source? [] = some [.word "red"] := rfl
  have hinlines : Inlines [] [variableOrRed] [.word "red"] :=
    .expanded rfl hinner (.leaf Bool.false_ne_true .nil) .nil
  have hrefers : Refers [] variableTwiceOrRed variableOrRed :=
    ⟨[variableOrRed], hfall, List.mem_singleton_self _⟩
  have hrecurs : Recurs [] variableTwiceOrRed "--x" :=
    ⟨_, _, .refl, .single hrefers, rfl, rfl⟩
  obtain ⟨-, -, hacyclic⟩ := expansion_of_undefined [] _ hmem hname rfl hfall
  obtain ⟨inlined, -, -, hkept⟩ := hacyclic fun k value h => (by cases h)
  exact ⟨hmem, hname, hfall, hinlines, (hkept ⟨_, hrecurs⟩).1⟩

end ColorMod
