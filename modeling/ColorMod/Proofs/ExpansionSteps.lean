import Mathlib.Logic.Relation
import ColorMod.Proofs.Expansion

/-!
# Substitution step by step

Substitution as a machine that might run on for ever: it holds a stack of tasks, each a list of
nodes to replace in a place where some names are being expanded.  A step (`next?`) replaces a node
at once, opens a task for the children of a branch or for what a call stands for, or hands the nodes
of a finished task to the one below.

* `steps_substitute`: the machine comes to what `substituteNode` and `substituteAll` say.
* `acc_of_steps`: a run that comes to an end is the only one.
* `Task.Within.lex`: a task is smaller than the one around it.
* `Nested.step`, `Nested.steps`: each task is within the one below it, all through a run.
* `Nested.countP_le`: as many values are open as there are properties, at most.
* `substitution_ends`: all of it, from the start.
-/

namespace ColorMod

open Node Properties

/-! ## The machine -/

/-- What nodes are replaced for. -/
inductive Purpose where
  /-- They are below the whole tree. -/
  | tree
  | branch (h : Head)
  /-- The call stands for them, by its name or by its fallback. -/
  | call (call : Node) (name : String)

/-- A list of nodes to replace. -/
structure Task where
  purpose : Purpose
  /-- The names that are being expanded. -/
  seen : List String
  nodes : List Node
  /-- What the first nodes have become, and whether that met no cycle. -/
  done : Substituted := ([], true)
  /-- The nodes that are left. -/
  rest : List Node := nodes

namespace Task

/-- The task with the replacement of its next node. -/
def add (task : Task) (replacement : Substituted) : Task :=
  { task with done := (task.done.1 ++ replacement.1, task.done.2 && replacement.2) }

/-- What a finished task replaces. -/
def result (task : Task) : Substituted :=
  match task.purpose with
  | .tree => task.done
  | .branch h => ([.branch h task.done.1], task.done.2)
  | .call call _ => task.done.orKeep call

/-- The task is about the value of a property. -/
def isOfValue (props : Properties) (task : Task) : Bool :=
  match task.purpose with
  | .call _ name => (props.lookup name).isSome
  | _ => false

end Task

/-- A node is replaced at once, or it takes a task. -/
def replaceOrOpen (props : Properties) (seen : List String) (n : Node) : Substituted ⊕ Task :=
  if n.isVariable then
    match n.variableName? with
    | none => .inl ([n], true)
    | some name =>
      if name ∈ seen then .inl ([n], false)
      else
        match n.source? props with
        | some nodes => .inr { purpose := .call n name, seen := name :: seen, nodes }
        | none => .inl ([n], true)
  else
    match n with
    | .leaf _ => .inl ([n], true)
    | .branch h cs => .inr { purpose := .branch h, seen, nodes := cs }

/-- A step of the machine; it stops when no node is left and no task waits. -/
def next? (props : Properties) : List Task → Option (List Task)
  | [] => none
  | task :: tasks =>
    match task.rest, tasks with
    | n :: rest, _ =>
      match replaceOrOpen props task.seen n with
      | .inl replacement => some ({ task with rest }.add replacement :: tasks)
      | .inr opened => some (opened :: { task with rest } :: tasks)
    | [], outer :: tasks => some (outer.add task.result :: tasks)
    | [], [] => none

/-- The stack for the nodes below a tree. -/
def startTasks (tree : Node) : List Task :=
  [{ purpose := .tree, seen := [], nodes := tree.children }]

abbrev Steps (props : Properties) : List Task → List Task → Prop :=
  Relation.ReflTransGen fun tasks tasks' => next? props tasks = some tasks'

section

variable {props : Properties} {seen : List String} {n : Node}

/-- What is replaced at once becomes what substitution says. -/
theorem replaceOrOpen_of_stuck (hn : n.isVariable) (hsource : n.source? props = none)
    (hseen : ∀ name ∈ seen, n.variableName? ≠ some name) :
    replaceOrOpen props seen n = .inl ([n], true) := by
  unfold replaceOrOpen
  rw [if_pos hn]
  cases hname : n.variableName? with
  | none => rfl
  | some name =>
    have hfresh : name ∉ seen := fun hmem => hseen name hmem hname
    simp only [if_neg hfresh, hsource]

theorem replaceOrOpen_of_seen {name : String} (hn : n.isVariable)
    (hname : n.variableName? = some name) (hseen : name ∈ seen) :
    replaceOrOpen props seen n = .inl ([n], false) := by
  unfold replaceOrOpen
  simp only [if_pos hn, hname, if_pos hseen]

theorem replaceOrOpen_of_source {name : String} {nodes : List Node} (hn : n.isVariable)
    (hname : n.variableName? = some name) (hseen : name ∉ seen)
    (hsource : n.source? props = some nodes) :
    replaceOrOpen props seen n =
      .inr { purpose := .call n name, seen := name :: seen, nodes } := by
  unfold replaceOrOpen
  simp only [if_pos hn, hname, if_neg hseen, hsource]

theorem replaceOrOpen_leaf {h : Head} (hn : ¬(leaf h).isVariable) :
    replaceOrOpen props seen (leaf h) = .inl ([leaf h], true) :=
  if_neg hn

theorem replaceOrOpen_branch {h : Head} {cs : List Node} (hn : ¬(branch h cs).isVariable) :
    replaceOrOpen props seen (branch h cs) =
      .inr { purpose := .branch h, seen, nodes := cs } :=
  if_neg hn

end

/-! ## Where the machine comes to -/

section

variable {props : Properties} (task : Task) {n : Node} {rest : List Node} {tasks : List Task}

theorem Task.add_add (r r' : Substituted) :
    (task.add r).add r' = task.add (r.1 ++ r'.1, r.2 && r'.2) := by
  simp [add, List.append_assoc, Bool.and_assoc]

theorem steps_of_replaced {r : Substituted} (h : replaceOrOpen props task.seen n = .inl r) :
    Steps props ({ task with rest := n :: rest } :: tasks) ({ task with rest }.add r :: tasks) :=
  .single (by simp only [next?, h])

/-- A task is opened, and when it is finished it is one replacement. -/
theorem steps_of_opened {opened last : Task} (h : replaceOrOpen props task.seen n = .inr opened)
    (hinner : Steps props (opened :: { task with rest } :: tasks)
      (last :: { task with rest } :: tasks))
    (hlast : last.rest = []) :
    Steps props ({ task with rest := n :: rest } :: tasks)
      ({ task with rest }.add last.result :: tasks) := by
  refine .head (b := opened :: { task with rest } :: tasks) (by simp only [next?, h]) ?_
  exact hinner.tail (by simp only [next?, hlast])

/-- The topmost task gets the replacements of its next nodes, whatever waits below. -/
theorem steps_substitute (props : Properties) :
    (∀ (seen : List String) (n : Node) (task : Task) (rest : List Node) (tasks : List Task),
      task.seen = seen →
      Steps props ({ task with rest := n :: rest } :: tasks)
        ({ task with rest }.add (substituteNode props seen n) :: tasks)) ∧
    ∀ (seen : List String) (ns : List Node) (task : Task) (rest : List Node) (tasks : List Task),
      task.seen = seen →
      Steps props ({ task with rest := ns ++ rest } :: tasks)
        ({ task with rest }.add (substituteAll props seen ns) :: tasks) := by
  refine substitute_induction props ?stuck ?seen ?source ?leaf ?branch ?nil ?cons
  case stuck =>
    rintro seen call hcall hsource hseen task rest tasks rfl
    rw [substituteNode_of_stuck hcall hsource hseen]
    exact steps_of_replaced task (replaceOrOpen_of_stuck hcall hsource hseen)
  case seen =>
    rintro seen call name hcall hname hseen task rest tasks rfl
    rw [substituteNode_of_seen hcall hname hseen]
    exact steps_of_replaced task (replaceOrOpen_of_seen hcall hname hseen)
  case source =>
    rintro seen call name nodes hcall hname hseen hsource ih task rest tasks rfl
    rw [substituteNode_of_source hcall hname hseen hsource]
    have hinner := ih { purpose := .call call name, seen := name :: task.seen, nodes } []
      ({ task with rest } :: tasks) rfl
    rw [List.append_nil] at hinner
    have hsteps := steps_of_opened task (replaceOrOpen_of_source hcall hname hseen hsource) hinner
    simpa [Task.result, Task.add] using hsteps rfl
  case leaf =>
    rintro seen h hn task rest tasks rfl
    rw [substituteNode_leaf hn]
    exact steps_of_replaced task (replaceOrOpen_leaf hn)
  case branch =>
    rintro seen h cs hn ih task rest tasks rfl
    rw [substituteNode_branch hn]
    have hinner := ih { purpose := .branch h, seen := task.seen, nodes := cs } []
      ({ task with rest } :: tasks) rfl
    rw [List.append_nil] at hinner
    have hsteps := steps_of_opened task (replaceOrOpen_branch hn) hinner
    simpa [Task.result, Task.add] using hsteps rfl
  case nil =>
    rintro seen task rest tasks -
    have hadd : ({ task with rest } : Task).add (substituteAll props seen []) =
        { task with rest } := by
      simp [Task.add, substituteAll]
    rw [hadd]
    exact .refl
  case cons =>
    rintro seen n ns hn hns task rest tasks rfl
    rw [substituteAll_cons, ← Task.add_add]
    exact (hn task (ns ++ rest) tasks rfl).trans (hns (task.add _) rest tasks rfl)

end

/-- A run that comes to an end is the only one, because a step is a function of the stack. -/
theorem acc_of_steps {props : Properties} {tasks last : List Task} (h : Steps props tasks last)
    (hlast : next? props last = none) :
    Acc (fun tasks' tasks => next? props tasks = some tasks') tasks := by
  induction h using Relation.ReflTransGen.head_induction_on with
  | refl => exact ⟨_, fun tasks' h => by rw [hlast] at h; cases h⟩
  | head hstep _ ih =>
    refine ⟨_, fun tasks' h => ?_⟩
    rw [hstep] at h
    cases h
    exact ih

/-! ## Tasks within tasks -/

/-- How a task comes out of the one that waits for it. -/
inductive Task.Within (props : Properties) (outer opened : Task) : Prop where
  /-- The nodes are below a node of the outer task. -/
  | branch (h : Head) (hpurpose : opened.purpose = .branch h)
      (hmem : .branch h opened.nodes ∈ outer.nodes) (hseen : opened.seen = outer.seen)
  /-- The nodes are the value of a name that was not being expanded. -/
  | value (call : Node) (name : String) (value : Node) (hpurpose : opened.purpose = .call call name)
      (hmem : call ∈ outer.nodes) (hname : call.variableName? = some name)
      (hdef : props.lookup name = some value) (hnodes : opened.nodes = value.children)
      (hnew : name ∉ outer.seen) (hseen : opened.seen = name :: outer.seen)
  /-- The nodes are the fallback of a call, which is smaller than the call. -/
  | fallback (call : Node) (name : String) (hpurpose : opened.purpose = .call call name)
      (hmem : call ∈ outer.nodes) (hname : call.variableName? = some name)
      (hundef : props.lookup name = none) (hnodes : call.fallback? = some opened.nodes)
      (hless : sizeOf opened.nodes < sizeOf call) (hnew : name ∉ outer.seen)
      (hseen : opened.seen = name :: outer.seen)

/-- Each task comes out of the one below it, the last one is for the whole tree, and the nodes that
are left are the last ones of a task. -/
inductive Nested (props : Properties) : List Task → Prop where
  | tree {task : Task} (hpurpose : task.purpose = .tree) (hseen : task.seen = [])
      (hrest : task.rest <:+ task.nodes) : Nested props [task]
  | within {outer opened : Task} {tasks : List Task} (houter : Nested props (outer :: tasks))
      (hwithin : Task.Within props outer opened) (hrest : opened.rest <:+ opened.nodes) :
      Nested props (opened :: outer :: tasks)

section

variable {props : Properties} {outer opened task : Task} {tasks tasks' : List Task}

/-- A task is smaller than the one around it: fewer properties are left to expand, or no more are
and its nodes are a part of the other's nodes. -/
theorem Task.Within.lex (h : Within props outer opened) :
    Prod.Lex (· < ·) (· < ·) (props.unseen opened.seen, sizeOf opened.nodes)
      (props.unseen outer.seen, sizeOf outer.nodes) := by
  cases h with
  | branch h hpurpose hmem hseen =>
    have hbelow := List.sizeOf_lt_of_mem hmem
    rw [hseen]
    exact .right _ (by simp only [branch.sizeOf_spec] at hbelow; omega)
  | value call name value hpurpose hmem hname hdef hnodes hnew hseen =>
    rw [hseen]
    exact .left _ _ (unseen_cons_lt hnew hdef)
  | fallback call name hpurpose hmem hname hundef hnodes hless hnew hseen =>
    have hbelow := List.sizeOf_lt_of_mem hmem
    rw [hseen]
    rcases Nat.lt_or_eq_of_le (unseen_cons_le props name outer.seen) with h | h
    · exact .left _ _ h
    · rw [h]
      exact .right _ (by omega)

/-- A task that is opened for a node is within the task of that node. -/
theorem within_of_opened (outer : Task) {n : Node}
    (h : replaceOrOpen props outer.seen n = .inr opened) (hn : n ∈ outer.nodes) :
    Task.Within props outer opened ∧ opened.rest = opened.nodes := by
  unfold replaceOrOpen at h
  split at h
  · split at h
    · cases h
    · next name hname =>
      split at h
      · cases h
      · next hnew =>
        split at h
        · next nodes hsource =>
          cases h
          refine ⟨?_, rfl⟩
          cases hdef : props.lookup name with
          | some value =>
            rw [source?_of_defined hname hdef] at hsource
            cases hsource
            exact .value n name value rfl hn hname hdef rfl hnew rfl
          | none =>
            rw [source?_of_undefined hname hdef] at hsource
            exact .fallback n name rfl hn hname hdef hsource (sizeOf_fallback_lt hsource) hnew rfl
        · cases h
  · split at h
    · cases h
    · cases h
      exact ⟨.branch _ rfl hn rfl, rfl⟩

namespace Nested

theorem suffix (h : Nested props (task :: tasks)) : task.rest <:+ task.nodes := by
  cases h with
  | tree _ _ hrest => exact hrest
  | within _ _ hrest => exact hrest

/-- The topmost task may have come further. -/
theorem advance {task' : Task} (h : Nested props (task :: tasks))
    (hpurpose : task'.purpose = task.purpose) (hseen : task'.seen = task.seen)
    (hnodes : task'.nodes = task.nodes) (hrest : task'.rest <:+ task.nodes) :
    Nested props (task' :: tasks) := by
  cases h with
  | tree hpurpose₀ hseen₀ _ =>
    exact .tree (hpurpose.trans hpurpose₀) (hseen.trans hseen₀) (hnodes ▸ hrest)
  | within houter hwithin _ =>
    refine .within houter ?_ (hnodes ▸ hrest)
    cases hwithin with
    | branch h hp hm hs => exact .branch h (hpurpose.trans hp) (hnodes ▸ hm) (hseen.trans hs)
    | value call name value hp hm hn hd hv hnew hs =>
      exact .value call name value (hpurpose.trans hp) hm hn hd (hnodes.trans hv) hnew
        (hseen.trans hs)
    | fallback call name hp hm hn hu hf hless hnew hs =>
      exact .fallback call name (hpurpose.trans hp) hm hn hu (hnodes ▸ hf) (hnodes ▸ hless) hnew
        (hseen.trans hs)

/-- A step keeps tasks nested. -/
theorem step (h : Nested props tasks) (hstep : next? props tasks = some tasks') :
    Nested props tasks' := by
  cases tasks with
  | nil => cases hstep
  | cons task tasks =>
    cases hrest : task.rest with
    | cons n rest =>
      have hsuffix : n :: rest <:+ task.nodes := hrest ▸ h.suffix
      have hadvanced : Nested props ({ task with rest } :: tasks) :=
        h.advance rfl rfl rfl ((List.suffix_cons n rest).trans hsuffix)
      simp only [next?, hrest] at hstep
      split at hstep
      · cases hstep
        exact hadvanced.advance rfl rfl rfl hadvanced.suffix
      · next opened hopened =>
        cases hstep
        have hn : n ∈ task.nodes := hsuffix.subset List.mem_cons_self
        obtain ⟨hwithin, hall⟩ := within_of_opened { task with rest } hopened hn
        exact .within hadvanced hwithin (hall ▸ List.suffix_rfl)
    | nil =>
      cases h with
      | tree => simp [next?, hrest] at hstep
      | within houter _ _ =>
        simp only [next?, hrest] at hstep
        cases hstep
        exact houter.advance rfl rfl rfl houter.suffix

theorem steps (h : Nested props tasks) (hsteps : Steps props tasks tasks') :
    Nested props tasks' := by
  induction hsteps with
  | refl => exact h
  | tail _ hstep ih => exact ih.step hstep

/-- Each value that is open has used up a property. -/
theorem countP_add_unseen_le : ∀ {task : Task} {tasks : List Task}, Nested props (task :: tasks) →
    (task :: tasks).countP (Task.isOfValue props) + props.unseen task.seen ≤ props.length
  | task, _, .tree hpurpose hseen _ => by
    have hvalue : ¬task.isOfValue props := by simp [Task.isOfValue, hpurpose]
    rw [List.countP_cons_of_neg hvalue, List.countP_nil, Nat.zero_add]
    exact List.length_filter_le _ _
  | opened, outer :: _, .within houter hwithin _ => by
    have hle := countP_add_unseen_le houter
    cases hwithin with
    | branch h hpurpose _ hseen =>
      have hvalue : ¬opened.isOfValue props := by simp [Task.isOfValue, hpurpose]
      rw [List.countP_cons_of_neg hvalue, hseen]
      exact hle
    | value call name value hpurpose _ _ hdef _ hnew hseen =>
      have hvalue : opened.isOfValue props := by simp [Task.isOfValue, hpurpose, hdef]
      have hlt := unseen_cons_lt hnew hdef
      rw [List.countP_cons_of_pos hvalue, hseen]
      omega
    | fallback call name hpurpose _ _ hundef _ _ _ hseen =>
      have hvalue : ¬opened.isOfValue props := by simp [Task.isOfValue, hpurpose, hundef]
      have hless := unseen_cons_le props name outer.seen
      rw [List.countP_cons_of_neg hvalue, hseen]
      omega

theorem countP_le (h : Nested props tasks) :
    tasks.countP (Task.isOfValue props) ≤ props.length := by
  cases tasks with
  | nil => exact Nat.zero_le _
  | cons task tasks => exact Nat.le_of_add_right_le h.countP_add_unseen_le

end Nested

end

/-! ## From start to end -/

theorem nested_startTasks (props : Properties) (tree : Node) : Nested props (startTasks tree) :=
  .tree rfl rfl List.suffix_rfl

/-- Substitution ends for each tree and all properties, whatever refers to what: there is no run
without end, and the run there is comes to the children that `substitute` gives the tree.  On the
way each task is within the one below it: it is for the nodes below a branch, or it adds a name of
the properties that was not being expanded, or its nodes are a fallback smaller than its call.  Each
task is smaller than the one around it, and there are never more values open than properties. -/
theorem substitution_ends (props : Properties) (tree : Node) :
    Acc (fun tasks' tasks => next? props tasks = some tasks') (startTasks tree) ∧
    (∃ last, Steps props (startTasks tree) [last] ∧ next? props [last] = none ∧
      (substitute props tree).head = tree.head ∧
      (substitute props tree).children = last.done.1) ∧
    (∀ tasks, Steps props (startTasks tree) tasks →
      Nested props tasks ∧ tasks.countP (Task.isOfValue props) ≤ props.length) ∧
    ∀ outer opened, Task.Within props outer opened →
      Prod.Lex (· < ·) (· < ·) (props.unseen opened.seen, sizeOf opened.nodes)
        (props.unseen outer.seen, sizeOf outer.nodes) := by
  have hrun := (steps_substitute props).2 [] tree.children
    { purpose := .tree, seen := [], nodes := tree.children } [] [] rfl
  rw [List.append_nil] at hrun
  refine ⟨acc_of_steps hrun rfl, ⟨_, hrun, rfl, ?_, ?_⟩, fun tasks hsteps => ?_, fun _ _ => (·.lex)⟩
  · cases tree <;> rfl
  · cases tree with
    | leaf h => simp [substitute, children, substituteAll, Task.add]
    | branch h cs => rfl
  · have hnested := (nested_startTasks props tree).steps hsteps
    exact ⟨hnested, hnested.countP_le⟩

end ColorMod
