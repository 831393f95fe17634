import ColorMod.Proofs.Meanings
import ColorMod.Variables
import ColorMod.Walk

/-!
# The outermost calls of a tree

`callsBelow` and `mapCalls` meet the same calls: the calls of the changed tree are the changed
calls, as long as a call stays one (`callsBelow_mapCalls`), and trees are changed alike by what
changes these calls alike (`mapCalls_congr`).
-/

namespace ColorMod

namespace Node

mutual

theorem mapCalls_congr {f g : Node → Node} :
    ∀ n : Node, (∀ call ∈ n.callsBelow, f call = g call) → n.mapCalls f = n.mapCalls g
  | leaf h, _ => rfl
  | branch h cs, hfg => by
    rw [mapCalls, mapCalls, mapCallsAmong_congr cs hfg]

theorem mapCallsAmong_congr {f g : Node → Node} :
    ∀ ns : List Node, (∀ call ∈ callsAmong ns, f call = g call) →
      mapCallsAmong f ns = mapCallsAmong g ns
  | [], _ => rfl
  | n :: ns, hfg => by
    simp only [callsAmong, List.mem_append] at hfg
    have hns := mapCallsAmong_congr ns fun call hcall => hfg call (.inr hcall)
    by_cases hn : n.isCall
    · have hcall := hfg n (.inl (by simp [hn]))
      simp only [mapCallsAmong, hn, if_true, hcall, hns]
    · have hbelow := mapCalls_congr n fun call hcall => hfg call (.inl (by simpa [hn] using hcall))
      simp [mapCallsAmong, hn, hbelow, hns]

end

mutual

theorem mapCalls_id : ∀ n : Node, n.mapCalls id = n
  | leaf h => rfl
  | branch h cs => by rw [mapCalls, mapCallsAmong_id cs]

theorem mapCallsAmong_id : ∀ ns : List Node, mapCallsAmong id ns = ns
  | [] => rfl
  | n :: ns => by
    simp only [mapCallsAmong, mapCalls_id n, mapCallsAmong_id ns, id_eq, ite_self]

end

mutual

theorem callsBelow_mapCalls {f : Node → Node} (hf : ∀ n : Node, (f n).isCall = n.isCall) :
    ∀ n : Node, (n.mapCalls f).callsBelow = n.callsBelow.map f
  | leaf h => rfl
  | branch h cs => by rw [mapCalls, callsBelow, callsBelow, callsAmong_mapCallsAmong hf cs]

theorem callsAmong_mapCallsAmong {f : Node → Node} (hf : ∀ n : Node, (f n).isCall = n.isCall) :
    ∀ ns : List Node, callsAmong (mapCallsAmong f ns) = (callsAmong ns).map f
  | [] => rfl
  | n :: ns => by
    have hns := callsAmong_mapCallsAmong hf ns
    by_cases hn : n.isCall
    · simp [mapCallsAmong, callsAmong, hn, hf, hns]
    · have hbelow := callsBelow_mapCalls hf n
      have hkept : (n.mapCalls f).isCall = n.isCall := by cases n <;> rfl
      simp [mapCallsAmong, callsAmong, hn, hkept, hbelow, hns]

end

theorem mapCalls_of_not_hasCall {f : Node → Node} {n : Node} (h : ¬n.hasCall) :
    n.mapCalls f = n := by
  have hnone : n.callsBelow = [] := by simpa [hasCall] using h
  rw [mapCalls_congr n (g := id) (by simp [hnone]), mapCalls_id]

mutual

/-- What passes from a node to its children passes to the calls below. -/
theorem forall_callsBelow {motive : Node → Prop}
    (step : ∀ n m : Node, m ∈ n.children → motive n → motive m) :
    ∀ n : Node, motive n → ∀ call ∈ n.callsBelow, motive call
  | leaf h, _ => by simp [callsBelow]
  | branch h cs, hn => forall_callsAmong step cs fun m hm => step (branch h cs) m hm hn

theorem forall_callsAmong {motive : Node → Prop}
    (step : ∀ n m : Node, m ∈ n.children → motive n → motive m) :
    ∀ ns : List Node, (∀ m ∈ ns, motive m) → ∀ call ∈ callsAmong ns, motive call
  | [], _ => by simp [callsAmong]
  | n :: ns, hns => by
    obtain ⟨hn, hns⟩ := List.forall_mem_cons.mp hns
    intro call hcall
    rw [callsAmong, List.mem_append] at hcall
    rcases hcall with hcall | hcall
    · by_cases hcalls : n.isCall
      · rw [if_pos hcalls, List.mem_singleton] at hcall
        exact hcall ▸ hn
      · rw [if_neg hcalls] at hcall
        exact forall_callsBelow step n hn call hcall
    · exact forall_callsAmong step ns hns call hcall

end

theorem mem_callsAmong {call : Node} {ns : List Node} :
    call ∈ callsAmong ns ↔ ∃ n ∈ ns, call ∈ if n.isCall then [n] else n.callsBelow := by
  induction ns with
  | nil => simp [callsAmong]
  | cons n ns ih =>
    simp only [callsAmong, List.mem_append, ih, List.mem_cons, or_and_right, exists_or,
      exists_eq_left]

theorem callsAmong_cons (c : Node) (cs : List Node) :
    callsAmong (c :: cs) = callsAmong [c] ++ callsAmong cs := by
  rw [callsAmong, callsAmong, callsAmong, List.append_nil]

end Node

/-- Replacing the variables of a call leaves it a call. -/
theorem isCall_substitute (props : Properties) (n : Node) :
    (substitute props n).isCall = n.isCall := by
  cases n <;> rfl

end ColorMod
