import StagedArrays.Proofs.Graph.Accounts
import StagedArrays.Proofs.Graph.Progress
import StagedArrays.Proofs.Staging.Delivery
import StagedArrays.Proofs.Staging.Graphs

namespace StagedArrays

/-- The value of a literal. -/
def Node.literal? : Node → Option Value
  | literal v => some v.value
  | binary _ => none

namespace Graph

/-- The values of the literals, in the order of the nodes. -/
def literals (graph : Graph Node) : List Value := graph.entries.toList.filterMap fun entry => entry.node.literal?

/-- The nodes whose results are kept, in order. -/
def retained (graph : Graph Node) : List NodeId :=
  ((List.range graph.size).map NodeId.mk).filter fun id => (graph.wiring id).map Prod.snd = some .output

/-- Puts other values in the place of literals, as far as there are any. -/
def replaceLiterals : List (GraphEntry Node) → List Value → List (GraphEntry Node)
  | [], _ => []
  | entry :: entries, values =>
    match entry.node, values with
    | .literal _, value :: rest => { entry with node := .literal (.unmanaged value) } :: replaceLiterals entries rest
    | _, _ => entry :: replaceLiterals entries values

/-- The graph of other literals. -/
def withLiterals (graph : Graph Node) (values : List Value) : Graph Node :=
  { graph with entries := (replaceLiterals graph.entries.toList values).toArray }

/-- Runs a graph with a new allocator. The results that are kept come with the
    number of slots made. -/
def evaluate {σ : Type} (graph : Graph Node) (maxSlots : Nat) : Action σ (List (NodeId × Variable) × Nat) :=
  .focus (fun world => ((⟨graph, { storage := ⟨{ maxSlots }, world⟩ }⟩ : GraphState Node σ),
      fun state => state.activity.storage.world)) <|
    Stateful.mapCause (fun cause : GraphError => .invalidArgument (.host cause.message)) do
      let results ← GraphM.run
      return (results, (← get).activity.storage.allocator.totalSlots)

variable {graph : Graph Node}

/-- A node whose result is an output is among the retained ones. -/
theorem mem_retained {id : NodeId} (h : (graph.wiring id).map Prod.snd = some .output) : id ∈ graph.retained := by
  refine List.mem_filter.mpr ⟨List.mem_map.mpr ⟨id.index, List.mem_range.mpr ?_, rfl⟩, by simpa using h⟩
  obtain ⟨wired, hwired, -⟩ := Option.map_eq_some_iff.mp h
  obtain ⟨entry, hentry, -⟩ := Option.map_eq_some_iff.mp hwired
  exact (Array.getElem?_eq_some_iff.mp hentry).1

/-- A graph that is evaluated starts with storage of its own, runs, and hands
    its outputs over. -/
theorem runFrom_evaluate_eq_ok {σ : Type} {maxSlots slots : Nat} {world after : World σ}
    {results : List (NodeId × Variable)} (h : (graph.evaluate maxSlots).runFrom world = (.ok (results, slots), after)) :
    ∃ state, GraphM.run.runFrom ⟨graph, { storage := ⟨{ maxSlots }, world⟩ }⟩ = (.ok results, state) ∧
      slots = state.activity.storage.allocator.totalSlots ∧ after = state.activity.storage.world := by
  rw [evaluate, Stateful.runFrom_focus, Prod.mk.injEq] at h
  obtain ⟨_, state, hrun, hpure⟩ := Stateful.runFrom_bind_eq_ok.mp (Stateful.runFrom_mapCause_eq_ok.mp (Prod.ext h.1 rfl))
  obtain ⟨hvalue, hstate⟩ := Prod.mk.inj hpure
  cases hvalue
  exact ⟨state, hrun, rfl, h.2.symm.trans (congrArg (fun state => state.activity.storage.world) hstate.symm)⟩

end Graph

namespace Staging

variable {σ τ : Type} {c : Staging σ τ} {bindings : Bindings} {graph : Graph Node}

/-- A graph of other literals is at the start where the given one is. -/
theorem forall₂_replaceLiterals {entries : List (GraphEntry Node)} {values : List Value}
    (hidle : ∀ entry ∈ entries, entry.node.idle = entry.node)
    (hunmanaged : ∀ entry ∈ entries, ∀ v, entry.node = .literal v → v.slot = none)
    (hvalues : List.Forall₂ (c.Binds bindings) (entries.filterMap fun entry => entry.node.literal?) values)
    (rest : List Value) :
    List.Forall₂ (c.PairsEntry bindings) entries (Graph.replaceLiterals entries (values ++ rest)) := by
  induction entries generalizing values with
  | nil => exact .nil
  | cons entry entries ih =>
    obtain ⟨hfirst, hidle'⟩ := List.forall_mem_cons.mp hidle
    obtain ⟨hslot, hunmanaged'⟩ := List.forall_mem_cons.mp hunmanaged
    obtain ⟨node, dependents, retention⟩ := entry
    cases node with
    | literal v =>
      obtain ⟨double, doubles, hbinds, hdoubles, rfl⟩ := List.forall₂_cons_left_iff.mp hvalues
      exact .cons ⟨.literal ⟨hbinds, (hslot v rfl).symm⟩, rfl, rfl⟩ (ih hidle' hunmanaged' hdoubles)
    | binary node =>
      have hnode : ({ node with held := none } : BinaryNode) = node := Node.binary.inj hfirst
      have hwaiting := @PairsNode.waiting _ _ c bindings node
      rw [hnode] at hwaiting
      exact .cons ⟨hwaiting, rfl, rfl⟩ (ih hidle' hunmanaged' hvalues)

/-- An idle graph is paired with itself once its literals are replaced by what
    stands for them. -/
theorem forall₂_withLiterals {values : List Value} (hidle : graph.idle = graph) (hunmanaged : graph.Unmanaged)
    (hvalues : List.Forall₂ (c.Binds bindings) graph.literals values) (rest : List Value) :
    List.Forall₂ (c.PairsEntry bindings) graph.entries.toList (graph.withLiterals (values ++ rest)).entries.toList := by
  refine forall₂_replaceLiterals (fun entry hmem => ?_) (fun entry hmem v hnode => ?_) hvalues rest <;>
    obtain ⟨index, hentry⟩ := List.mem_iff_getElem?.mp hmem <;> rw [Array.getElem?_toList] at hentry
  · exact @Graph.node_idle_of_idle _ ⟨index⟩ _ hidle hentry
  · exact hunmanaged index entry v hentry hnode

end Staging

end StagedArrays
