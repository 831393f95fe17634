import ColorMod.Stylesheet
import ColorMod.Proofs.Calls
import ColorMod.Proofs.PolicyWalks
import ColorMod.Proofs.Substitution

/-!
# One more custom property in a stylesheet

A declaration of a custom property that no `var` call refers to is put among the declarations of a
stylesheet.  Substitution does not look the name up, so the other declarations change in two cases
only: when the added value ends the run with a fault of its own, and when it is the only custom
property.  In the latter case it is what makes variables give way to their fallbacks at all, since
without properties nothing is substituted.

* `agreeOff_collect`: the properties before and after differ in the added name alone.
* `process_insert_unmentioned`: what becomes of the other declarations.
-/

namespace ColorMod

open Node Properties

/-! ## The properties of a stylesheet -/

namespace Properties

theorem lookup_cons_eq (p : String × Node) (props : Properties) (k : String) :
    (p :: props).lookup k = if k = p.1 then some p.2 else props.lookup k := by
  rw [List.lookup_cons]
  by_cases hk : k = p.1
  · simp [hk]
  · simp [hk, beq_false_of_ne hk]

theorem lookup_define (props : Properties) (name k : String) (value : Node) :
    (props.define name value).lookup k = if k = name then some value else props.lookup k := by
  have hfilter : (props.filter fun p => p.1 != name).lookup k =
      if k = name then none else props.lookup k := by
    induction props with
    | nil => simp
    | cons p props ih =>
      rw [List.filter_cons, lookup_cons_eq]
      by_cases hp : p.1 = name
      · simp only [hp, bne_self_eq_false, Bool.false_eq_true, if_false, ih]
        split <;> rfl
      · simp only [bne_iff_ne, ne_eq, hp, not_false_eq_true, if_true, lookup_cons_eq, ih]
        by_cases hk : k = p.1
        · simp only [hk, hp, if_true, if_false]
        · simp only [hk, if_false]
  rw [define, List.lookup_append, hfilter, lookup_cons_eq]
  by_cases hk : k = name
  · simp [hk]
  · simp [hk]

/-- The value of a name is the one of its last declaration. -/
theorem lookup_collect (declarations : List Declaration) (k : String) :
    (collect declarations).lookup k =
      if isCustomProperty k then declarations.reverse.lookup k else none := by
  have hfold : ∀ props : Properties,
      (declarations.foldl
        (fun props d => if isCustomProperty d.1 then props.define d.1 d.2 else props) props).lookup k =
      (if isCustomProperty k then declarations.reverse.lookup k else none).or (props.lookup k) := by
    induction declarations with
    | nil => simp
    | cons d ds ih =>
      intro props
      rw [List.foldl_cons, ih, List.reverse_cons, List.lookup_append, lookup_cons_eq]
      by_cases hd : isCustomProperty d.1
      · rw [if_pos hd, lookup_define]
        by_cases hk : k = d.1
        · simp [hk, hd]
        · simp [hk]
      · rw [if_neg hd]
        by_cases hk : k = d.1
        · simp [hk, hd]
        · simp [hk]
  exact (hfold []).trans (by simp)

theorem collect_eq_nil_iff (declarations : List Declaration) :
    collect declarations = [] ↔ ∀ d ∈ declarations, ¬isCustomProperty d.1 := by
  constructor
  · intro hnil d hd hcustom
    have hlookup := lookup_collect declarations d.1
    rw [hnil, if_pos hcustom, List.lookup_nil, eq_comm, List.lookup_eq_none_iff] at hlookup
    simpa using hlookup d (List.mem_reverse.mpr hd)
  · intro hnone
    rw [List.eq_nil_iff_forall_not_mem]
    intro p hp
    have hlookup : (collect declarations).lookup p.1 = none := by
      rw [lookup_collect]
      split
      · next hcustom =>
        rw [List.lookup_eq_none_iff]
        intro d hd
        have hne : p.1 ≠ d.1 := fun h => hnone d (List.mem_reverse.mp hd) (h ▸ hcustom)
        simpa using hne
      · rfl
    simpa using List.lookup_eq_none_iff.mp hlookup p hp

/-- The properties before and after a declaration is added differ in its name alone. -/
theorem agreeOff_collect {ds₁ ds₂ : List Declaration} {name : String} {value : Node}
    (h : ∀ d ∈ ds₁ ++ ds₂, name ∉ d.2.variableNames) :
    AgreeOff name (collect (ds₁ ++ ds₂)) (collect (ds₁ ++ (name, value) :: ds₂)) where
  lookup_eq k hk := by
    rw [lookup_collect, lookup_collect]
    simp only [List.reverse_append, List.reverse_cons, List.lookup_append, List.append_assoc,
      lookup_cons_eq, hk, if_false, List.lookup_nil, Option.none_or]
  not_mentioned k v hk hv := by
    rw [lookup_collect] at hv
    split at hv
    · obtain ⟨l₁, l₂, hl, -⟩ := List.lookup_eq_some_iff.mp hv
      have hmem : (k, v) ∈ (ds₁ ++ ds₂).reverse := by rw [hl]; simp
      exact h (k, v) (List.mem_reverse.mp hmem)
    · cases hv

end Properties

/-! ## Declarations before and after -/

theorem mapCalls_substitute_congr {name : String} {props props' : Properties}
    (hprops : AgreeOff name props props') {tree : Node} (h : name ∉ tree.variableNames) :
    tree.mapCalls (substitute props') = tree.mapCalls (substitute props) := by
  apply mapCalls_congr
  intro call hcall
  have hfree : name ∉ call.variableNames := by
    refine forall_callsBelow (motive := fun n => name ∉ n.variableNames) ?_ tree h call hcall
    intro n m hm hn hmem
    exact not_mem_children hn (mem_variableNamesAmong.mpr ⟨m, hm, hmem⟩)
  exact substitute_congr hprops hfree

namespace Processor

/-- A declaration with the variables in its calls replaced by their fallbacks and the calls
resolved. -/
def transformFallbacks (ctx : Context Float) (d : Declaration) : Walked Float Declaration :=
  transformDeclaration ctx [] (d.1, d.2.mapCalls (substitute []))

variable {ctx : Context Float} {name : String} {props props' : Properties} {d : Declaration}

theorem transformAll_eq_each (ctx : Context Float) (props : Properties)
    (declarations : List Declaration) :
    transformAll ctx props declarations =
      Walked.each (transformDeclaration ctx props) declarations := by
  induction declarations with
  | nil => rfl
  | cons d ds ih => rw [transformAll, Walked.each, ih]

theorem transformDeclaration_congr (hprops : AgreeOff name props props') (hne : props ≠ [])
    (hne' : props' ≠ []) (hd : name ∉ d.2.variableNames) :
    transformDeclaration ctx props' d = transformDeclaration ctx props d := by
  simp only [transformDeclaration, transform, List.isEmpty_iff, hne, hne', if_false,
    mapCalls_substitute_congr hprops hd]

/-- Where no property is mentioned the variables give way to their fallbacks. -/
theorem transformDeclaration_eq_fallbacks (hprops : AgreeOff name [] props') (hne' : props' ≠ [])
    (hd : name ∉ d.2.variableNames) :
    transformDeclaration ctx props' d = transformFallbacks ctx d := by
  have hcall : (d.2.mapCalls (substitute [])).hasCall = d.2.hasCall := by
    rw [hasCall, hasCall, callsBelow_mapCalls (isCall_substitute []), List.isEmpty_map]
  simp only [transformFallbacks, transformDeclaration, transform, List.isEmpty_iff, hne',
    if_false, if_true, mapCalls_substitute_congr hprops hd, hcall]
  split
  · rfl
  · next h => rw [mapCalls_of_not_hasCall h]

theorem process_declarations {p : Processor} (hvars : p.replacesVariables)
    (hctx : Context.build p.options.toChoices p.settings = .ok ctx)
    (declarations : List Declaration) :
    (p.process declarations).declarations =
      (Walked.each (transformDeclaration ctx (collect declarations)) declarations).result := by
  rw [← transformAll_eq_each]
  simp only [process, hctx, hvars, if_true]
  split <;> rfl

/-- A custom property that no variable refers to is put among declarations.  If its own value is
transformed without a fault, the others come out as before just when another custom property is
declared or the fallbacks in them make no difference.  If it is not, the others after it are left
as they are. -/
theorem process_insert_unmentioned (p : Processor) (ctx : Context Float)
    (ds₁ ds₂ : List Declaration) (name : String) (value : Node) (hvars : p.replacesVariables)
    (hctx : Context.build p.options.toChoices p.settings = .ok ctx)
    (hname : isCustomProperty name) (hfree : ∀ d ∈ ds₁ ++ ds₂, name ∉ d.2.variableNames) :
    let props := collect (ds₁ ++ (name, value) :: ds₂)
    let added := (transformDeclaration ctx props (name, value)).run.outcome
    let others := (p.process (ds₁ ++ (name, value) :: ds₂)).declarations.eraseIdx ds₁.length
    (added = .ok () →
      (others = (p.process (ds₁ ++ ds₂)).declarations ↔
        (∃ d ∈ ds₁ ++ ds₂, isCustomProperty d.1) ∨
        (Walked.each (transformFallbacks ctx) (ds₁ ++ ds₂)).result =
          (Walked.each (transformDeclaration ctx []) (ds₁ ++ ds₂)).result)) ∧
    (∀ e, added = .error e → others = (transformAll ctx props ds₁).result ++ ds₂) := by
  intro props added others
  have hne : props ≠ [] := by
    intro h
    exact (collect_eq_nil_iff _).mp h (name, value) (by simp) hname
  refine ⟨fun hadded => ?_, fun e hadded => ?_⟩
  · have hothers : others = (Walked.each (transformDeclaration ctx props) (ds₁ ++ ds₂)).result := by
      rw [← Walked.eraseIdx_each_of_ok hadded]
      exact congrArg (·.eraseIdx ds₁.length) (process_declarations hvars hctx _)
    rw [hothers, process_declarations hvars hctx]
    have hagree : AgreeOff name (collect (ds₁ ++ ds₂)) props := agreeOff_collect hfree
    by_cases hother : ∃ d ∈ ds₁ ++ ds₂, isCustomProperty d.1
    · have hne₀ : collect (ds₁ ++ ds₂) ≠ [] := by
        intro h
        obtain ⟨d, hd, hcustom⟩ := hother
        exact (collect_eq_nil_iff _).mp h d hd hcustom
      have hsame : Walked.each (transformDeclaration ctx props) (ds₁ ++ ds₂) =
          Walked.each (transformDeclaration ctx (collect (ds₁ ++ ds₂))) (ds₁ ++ ds₂) :=
        Walked.each_congr fun d hd => transformDeclaration_congr hagree hne₀ hne (hfree d hd)
      simp only [hsame, hother, true_or]
    · have hnil : collect (ds₁ ++ ds₂) = [] := by
        rw [collect_eq_nil_iff]
        exact fun d hd hcustom => hother ⟨d, hd, hcustom⟩
      rw [hnil] at hagree ⊢
      have hfallbacks : Walked.each (transformDeclaration ctx props) (ds₁ ++ ds₂) =
          Walked.each (transformFallbacks ctx) (ds₁ ++ ds₂) :=
        Walked.each_congr fun d hd => transformDeclaration_eq_fallbacks hagree hne (hfree d hd)
      simp only [hfallbacks, hother, false_or]
  · rw [transformAll_eq_each, ← Walked.eraseIdx_each_of_error hadded]
    exact congrArg (·.eraseIdx ds₁.length) (process_declarations hvars hctx _)

/-- `var(--x, red)` -/
def redOrVariable : Node :=
  .function "var" [.word "--x", .comma, .space, .word "red"]

/-- `color: color-mod(var(--x, red))` -/
def redFallback : Declaration :=
  ("color", .root [.function colorModName [redOrVariable]])

theorem substituteAll_redOrVariable :
    substituteAll [] [] [.paren "(", redOrVariable, .paren ")"] =
      ([.paren "(", .word "red", .paren ")"], true) := by
  have hname : redOrVariable.variableName? = some "--x" := rfl
  have hfall : redOrVariable.fallback? = some [.space, .word "red"] := rfl
  have hparen : ∀ text, substituteNode [] [] (.paren text) = ([.paren text], true) := fun text =>
    substituteNode_leaf Bool.false_ne_true
  have hspace : substituteNode [] ["--x"] .space = ([.space], true) :=
    substituteNode_leaf Bool.false_ne_true
  have hword : substituteNode [] ["--x"] (.word "red") = ([.word "red"], true) :=
    substituteNode_leaf Bool.false_ne_true
  have hvar : substituteNode [] [] redOrVariable = ([.word "red"], true) := by
    rw [substituteNode_of_fallback rfl hname List.not_mem_nil rfl hfall, substituteAll_cons,
      substituteAll_cons, substituteAll, hspace, hword]
    rfl
  rw [substituteAll_cons, substituteAll_cons, substituteAll_cons, substituteAll, hparen, hparen, hvar]
  rfl

/-- A processor that ignores complaints and replaces variables. -/
def ignoring : Processor :=
  { options := { policy := some "ignore", replacesVariables := some true }, settings := {} }

def ignoringContext : Context Float :=
  { policy := .ignore, format := .legacy, maxDepth := 64, cutoff := 75 }

/-- The fallback is used once `--y: blue` is declared, and is not without. -/
theorem process_insert_unmentioned_turns_on :
    (ignoring.process [("--y", .root [.word "blue"]), redFallback]).declarations.eraseIdx 0 ≠
      (ignoring.process [redFallback]).declarations := by
  intro heq
  have hctx : Context.build ignoring.options.toChoices ignoring.settings = .ok ignoringContext := by
    rfl
  have hfree : ∀ d ∈ [] ++ [redFallback], "--y" ∉ d.2.variableNames := by decide +kernel
  obtain ⟨hiff, -⟩ := process_insert_unmentioned ignoring ignoringContext [] [redFallback] "--y"
    (.root [.word "blue"]) rfl hctx (by decide +kernel) hfree
  have hexpanded : redFallback.2.mapCalls (substitute []) =
      .root [.function colorModName [.word "red"]] := by
    change Node.root
      [.branch _ (substituteAll [] [] [.paren "(", redOrVariable, .paren ")"]).1] = _
    rw [substituteAll_redOrVariable]
    rfl
  rcases (hiff rfl).mp heq with ⟨d, hd, hcustom⟩ | hsame
  · have hnone : ∀ d ∈ [] ++ [redFallback], ¬isCustomProperty d.1 := by decide +kernel
    exact hnone d hd hcustom
  · have htexts := congrArg (List.map fun d => d.2.render) hsame
    simp only [List.nil_append, Walked.each, transformFallbacks, hexpanded] at htexts
    revert htexts
    decide +kernel

end Processor

end ColorMod
