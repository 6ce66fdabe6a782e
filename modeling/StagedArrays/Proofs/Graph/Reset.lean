import StagedArrays.Proofs.Graph.Accounts

namespace StagedArrays

open Stateful (Moves)

namespace Node

/-- The node without an operand. -/
def idle : Node → Node
  | literal value => .literal value
  | binary node => .binary { node with held := none }

theorem held?_idle (node : Node) : node.idle.held? = none := by cases node <;> rfl

theorem idle_idle (node : Node) : node.idle.idle = node.idle := by cases node <;> rfl

theorem fixed?_idle (node : Node) : node.idle.fixed? = node.fixed? := by cases node <;> rfl

end Node

namespace Graph

variable {graph : Graph Node} {id : NodeId} {entry : GraphEntry Node} {node : Node}

/-- The graph as it is before a run: nothing held, nothing kept. -/
def idle (graph : Graph Node) : Graph Node :=
  ⟨graph.entries.map fun entry => { entry with node := entry.node.idle }, []⟩

theorem getElem?_idle (graph : Graph Node) (index : Nat) :
    graph.idle.entries[index]? = graph.entries[index]?.map fun entry => { entry with node := entry.node.idle } := by
  rw [idle, Array.getElem?_map]

/-- The literals and operations of a graph at work are those of the plan. -/
theorem exists_plan_entry {plan : Graph Node} (hidle : graph.idle = plan) (hentry : graph.entries[id.index]? = some entry) :
    plan.entries[id.index]? = some { entry with node := entry.node.idle } := by
  rw [← hidle, getElem?_idle, hentry, Option.map_some]

/-- An idle graph has the same edges. Only what nodes hold is left out. -/
@[simp]
theorem wiring_idle (graph : Graph Node) : graph.idle.wiring = graph.wiring := by
  funext id
  rw [wiring, wiring, getElem?_idle, Option.map_map]
  rfl

@[simp]
theorem size_idle (graph : Graph Node) : graph.idle.size = graph.size := by simp [idle, size]

/-- A name with edges is that of a node. Edges are kept in the entries. -/
theorem exists_entry_of_wiring {dependents : List NodeId} {retention : Retention}
    (h : graph.idle.wiring id = some (dependents, retention)) : ∃ entry, graph.entries[id.index]? = some entry := by
  rw [wiring_idle] at h
  obtain ⟨entry, hentry, -⟩ := Option.map_eq_some_iff.mp h
  exact ⟨entry, hentry⟩

/-- The values of the literals are the same in the idle graph. -/
theorem unmanaged_of_idle (h : graph.idle.Unmanaged) : graph.Unmanaged := by
  intro index entry value hentry hnode
  refine h index { entry with node := entry.node.idle } value ?_ (by rw [hnode]; rfl)
  rw [getElem?_idle, hentry, Option.map_some]

/-- What a node holds makes no difference to the idle graph. -/
theorem idle_setNode (hentry : graph.entries[id.index]? = some entry) (hnode : node.idle = entry.node.idle) :
    (graph.setNode id node).idle = graph.idle := by
  refine congrArg (Graph.mk · []) (Array.ext_getElem? fun index => ?_)
  rw [Array.getElem?_map, Array.getElem?_map, getElem?_setNode]
  split
  · next heq =>
    rw [← heq, hentry]
    simp only [Option.map_some, hnode]
  · rfl

/-- The operand that the node of a name holds. -/
def heldBy (graph : Graph Node) (index : Nat) : Option Variable := graph.entries[index]?.bind (·.node.held?)

/-- What a node holds depends on this node alone. -/
theorem heldBy_setNode (hentry : graph.entries[id.index]? = some entry) (index : Nat) :
    (graph.setNode id node).heldBy index = if id.index = index then node.held? else graph.heldBy index := by
  rw [heldBy, getElem?_setNode]
  split
  · next heq =>
    rw [← heq, hentry]
    rfl
  · rfl

/-- A node that holds nothing is idle. -/
theorem Node.idle_eq_self {node : Node} (h : node.held? = none) : node.idle = node := by
  cases node with
  | literal value => rfl
  | binary node =>
    obtain ⟨op, lhs, rhs, held⟩ := node
    obtain rfl : held = none := Option.map_eq_none_iff.mp h
    rfl

/-- A graph that holds nothing and keeps nothing is idle. -/
theorem idle_eq_self (hheld : ∀ index, graph.heldBy index = none) (houtputs : graph.outputs = []) : graph.idle = graph := by
  obtain ⟨entries, outputs⟩ := graph
  obtain rfl : outputs = [] := houtputs
  refine congrArg (Graph.mk · []) (Array.ext_getElem? fun index => ?_)
  rw [Array.getElem?_map]
  cases hentry : entries[index]? with
  | none => rfl
  | some entry =>
    have hnone := hheld index
    rw [heldBy, hentry, Option.bind_some] at hnone
    rw [Option.map_some, Node.idle_eq_self hnone]

/-- An idle graph holds nothing. -/
theorem held_idle (graph : Graph Node) : graph.idle.held = [] := by
  rw [held, idle, Array.toList_map, List.filterMap_map]
  refine List.filterMap_eq_nil_iff.mpr fun entry _ => ?_
  obtain ⟨node, dependents, retention⟩ := entry
  cases node <;> rfl

end Graph

namespace GraphM

variable {σ : Type} {state : GraphState Node σ} {id : NodeId} {entry : GraphEntry Node} {base : List Nat}

/-- What the nodes of a graph share moves along an order as the steps of the
    nodes do. -/
theorem moves_process {order : Activity σ → Activity σ → Prop} [IsPreorder (Activity σ) order]
    (hhold : ∀ input, Moves order (BinaryNode.hold input : ActivityM σ Variable))
    (hcombine : ∀ op side held input, Moves order (BinaryNode.combine op side held input : ActivityM σ Variable)) (id : NodeId)
    (source : Option NodeId) (input : Option Variable) :
    Moves (fun before after => order before.activity after.activity)
      (onNode id (GraphNode.process source input) : GraphM Node σ (Option Variable)) := by
  intro state
  cases hentry : state.graph.entries[id.index]? with
  | none =>
    rw [runFrom_onNode_of_none _ hentry]
    exact refl_of order state.activity
  | some entry =>
    rw [runFrom_process hentry]
    cases entry.node.reaction source input with
    | refuse cause => exact refl_of order state.activity
    | give value => exact refl_of order state.activity
    | hold node side operand =>
      have hmoves := hhold operand state.activity
      dsimp only
      generalize (BinaryNode.hold operand).runFrom state.activity = run at hmoves ⊢
      obtain ⟨failure | held, activity⟩ := run
      · exact hmoves
      · exact hmoves
    | combine node side held operand => exact hcombine node.op side held operand state.activity

/-- A step of a node changes no more of the graph than what the node holds. -/
theorem process_keeps (id : NodeId) (source : Option NodeId) (input : Option Variable) (state : GraphState Node σ) :
    state.activity.Quiet ((onNode id (GraphNode.process source input)).runFrom state).2.activity ∧
      ((onNode id (GraphNode.process source input)).runFrom state).2.graph.idle = state.graph.idle ∧
      ((onNode id (GraphNode.process source input)).runFrom state).2.graph.outputs = state.graph.outputs := by
  refine ⟨moves_process BinaryNode.quiet_hold BinaryNode.quiet_combine id source input state, ?_⟩
  cases hentry : state.graph.entries[id.index]? with
  | none =>
    rw [runFrom_onNode_of_none _ hentry]
    exact ⟨rfl, rfl⟩
  | some entry =>
    rw [runFrom_process hentry]
    cases hreaction : entry.node.reaction source input with
    | refuse cause => exact ⟨rfl, rfl⟩
    | give value => exact ⟨rfl, rfl⟩
    | hold node side operand =>
      dsimp only
      rcases (BinaryNode.hold operand).runFrom state.activity with ⟨failure | held, activity⟩
      · exact ⟨rfl, rfl⟩
      · refine ⟨Graph.idle_setNode hentry ?_, rfl⟩
        rw [(Node.eq_binary_of_hold hreaction).1]
        rfl
    | combine node side held operand =>
      refine ⟨Graph.idle_setNode hentry ?_, rfl⟩
      rw [(Node.eq_binary_of_combine hreaction).1]
      rfl

/-- Resetting a node gives back what it holds. -/
theorem runFrom_reset_node (hentry : state.graph.entries[id.index]? = some entry) :
    (onNode id GraphNode.reset).runFrom state =
      match entry.node.held? with
      | none => (.ok (), state)
      | some held => (((ActivityM.free held).runFrom state.activity).1,
          ⟨state.graph.setNode id entry.node.idle, ((ActivityM.free held).runFrom state.activity).2⟩) := by
  rw [runFrom_onNode _ hentry]
  have hself := Graph.setNode_self hentry
  obtain ⟨graph, activity⟩ := state
  cases hnode : entry.node with
  | literal value =>
    rw [hnode] at hself
    exact congrArg (fun graph => (_, GraphState.mk graph activity)) hself
  | binary node =>
    rw [hnode] at hself
    simp only [GraphNode.reset, Stateful.runFrom_bind, NodeM.runFrom_node, Node.onBinary, Stateful.runFrom_focus,
      BinaryNode.clear]
    obtain ⟨op, lhs, rhs, _ | ⟨side, held⟩⟩ := node
    · exact congrArg (fun graph => (_, GraphState.mk graph activity)) hself
    · rfl

/-- Resetting nodes gives back what they hold, and nothing else. -/
theorem resetNodes_lends (ids : List NodeId) (hknown : ∀ id ∈ ids, id.index < state.graph.size)
    (h : state.activity.storage.allocator.Lends (Variable.slotsOf state.graph.held ++ base)) :
    ∃ after, (notifyAll (fun id => onNode id GraphNode.reset) ids).runFrom state = (.ok (), after) ∧
      after.activity.storage.allocator.Lends (Variable.slotsOf after.graph.held ++ base) ∧
      after.graph.outputs = state.graph.outputs ∧ after.graph.idle = state.graph.idle ∧
      ∀ index, after.graph.heldBy index = none ∨ (⟨index⟩ : NodeId) ∉ ids ∧ after.graph.heldBy index = state.graph.heldBy index := by
  induction ids generalizing state with
  | nil => exact ⟨state, rfl, h, rfl, rfl, fun _ => .inr ⟨List.not_mem_nil, rfl⟩⟩
  | cons id rest ih =>
    have hlt := hknown id List.mem_cons_self
    obtain ⟨entry, hentry⟩ : ∃ entry, state.graph.entries[id.index]? = some entry := ⟨_, Array.getElem?_eq_getElem hlt⟩
    have hknown' : ∀ other ∈ rest, other.index < state.graph.size := fun other hmem => hknown other (List.mem_cons_of_mem _ hmem)
    have hrun := runFrom_reset_node hentry
    rw [notifyAll]
    cases hheld : entry.node.held? with
    | none =>
      rw [hheld] at hrun
      obtain ⟨after, hrest, hlends, houtputs, hidle, hafter⟩ := ih hknown' h
      rw [Stateful.runFrom_bind_of_ok hrun]
      refine ⟨after, hrest, hlends, houtputs, hidle, fun index => ?_⟩
      rcases hafter index with hnone | ⟨hnot, heq⟩
      · exact .inl hnone
      · by_cases hid : (⟨index⟩ : NodeId) = id
        · subst hid
          rw [heq, Graph.heldBy, hentry]
          exact .inl hheld
        · exact .inr ⟨by simp [hid, hnot], heq⟩
    | some held =>
      rw [hheld] at hrun
      have hperm := Graph.held_perm_setNode hentry hheld (Node.held?_idle entry.node)
      have hlends : state.activity.storage.allocator.Lends
          (held.slots ++ (Variable.slotsOf (state.graph.setNode id entry.node.idle).held ++ base)) := by
        rw [← List.append_assoc, ← GraphState.slotsOf_cons]
        exact h.perm ((hperm.flatMap_right _).append_right base)
      obtain ⟨allocator, hfree, hlends⟩ := ActivityM.free_lends hlends
      dsimp only at hrun
      rw [hfree] at hrun
      let next : GraphState Node σ := ⟨state.graph.setNode id entry.node.idle,
        ⟨{ state.activity.storage with allocator }, state.activity.journal.push (.freed held.slot (.ok ()))⟩⟩
      have hnext : ∀ other ∈ rest, other.index < next.graph.size := fun other hmem => by
        rw [Graph.size_setNode]
        exact hknown' other hmem
      obtain ⟨after, hrest, hlends, houtputs, hidle, hafter⟩ := ih hnext hlends
      rw [Stateful.runFrom_bind_of_ok hrun]
      refine ⟨after, hrest, hlends, houtputs, hidle.trans ?_, fun index => ?_⟩
      · exact Graph.idle_setNode hentry (Node.idle_idle entry.node)
      · rcases hafter index with hnone | ⟨hnot, heq⟩
        · exact .inl hnone
        · rw [Graph.heldBy_setNode hentry] at heq
          split at heq
          · rw [heq]
            exact .inl (Node.held?_idle entry.node)
          · next hne =>
            refine .inr ⟨?_, heq⟩
            have hid : (⟨index⟩ : NodeId) ≠ id := fun hid => hne (by rw [← hid])
            simp [hid, hnot]

/-- Outputs in use can be given back in any order. -/
theorem freeOutputs_lends (outputs : List (NodeId × Variable))
    (h : state.activity.storage.allocator.Lends (Variable.slotsOf (outputs.map Prod.snd) ++ base)) :
    ∃ activity, (freeOutputs outputs).runFrom state = (.ok (), ⟨state.graph, activity⟩) ∧
      activity.storage.allocator.Lends base := by
  induction outputs generalizing state with
  | nil => exact ⟨state.activity, rfl, h⟩
  | cons output rest ih =>
    rw [List.map_cons, GraphState.slotsOf_cons, List.append_assoc] at h
    obtain ⟨allocator, hfree, hlends⟩ := ActivityM.free_lends h
    let next : GraphState Node σ := ⟨state.graph, ⟨{ state.activity.storage with allocator },
      state.activity.journal.push (.freed output.2.slot (.ok ()))⟩⟩
    have hrun : (onActivity (.free output.2)).runFrom state = (.ok (), next) := by
      rw [runFrom_onActivity, hfree]
    obtain ⟨activity, hrest, hlends⟩ := @ih next hlends
    exact ⟨activity, (Stateful.runFrom_bind_of_ok hrun _).trans hrest, hlends⟩

/-- What a run leaves behind is given back, and the graph is idle again. -/
theorem reset_lends (h : state.activity.storage.allocator.Lends (Variable.slotsOf (state.inUse []) ++ base)) :
    ∃ activity, reset.runFrom state = (.ok (), ⟨state.graph.idle, activity⟩) ∧ activity.storage.allocator.Lends base := by
  let outputs := state.graph.outputs.mergeSort fun a b => a.1.index ≤ b.1.index
  let emptied : GraphState Node σ := ⟨{ state.graph with outputs := [] }, state.activity⟩
  have hlends : emptied.activity.storage.allocator.Lends
      (Variable.slotsOf (outputs.map Prod.snd) ++ (Variable.slotsOf state.graph.held ++ base)) := by
    rw [← List.append_assoc]
    refine h.perm (List.Perm.append_right base ?_)
    have hsort : (outputs.map Prod.snd).Perm state.graph.kept := (List.mergeSort_perm _ _).map Prod.snd
    have hperm : (state.inUse []).Perm (outputs.map Prod.snd ++ state.graph.held) :=
      List.perm_append_comm.trans (hsort.symm.append_right _)
    have hslots := hperm.flatMap_right Variable.slots
    rwa [List.flatMap_append] at hslots
  obtain ⟨freed, hfree, hlends⟩ := freeOutputs_lends outputs hlends
  let between : GraphState Node σ := ⟨emptied.graph, freed⟩
  have hknown : ∀ id ∈ (List.range state.graph.size).map NodeId.mk, id.index < between.graph.size := by
    simp [between, emptied, Graph.size]
  have hlends : between.activity.storage.allocator.Lends (Variable.slotsOf between.graph.held ++ base) := hlends
  obtain ⟨after, hreset, hlends, houtputs, hidle, hheld⟩ := resetNodes_lends _ hknown hlends
  have hnone : ∀ index, after.graph.heldBy index = none := by
    intro index
    rcases hheld index with hnone | ⟨hnot, hsame⟩
    · exact hnone
    · have hge : state.graph.entries.size ≤ index := by
        simpa [Graph.size] using hnot
      rw [hsame, Graph.heldBy, Array.getElem?_eq_none hge, Option.bind_none]
  have hgraph : after.graph = state.graph.idle := by
    rw [← Graph.idle_eq_self hnone houtputs, hidle]
    rfl
  refine ⟨after.activity, ?_, ?_⟩
  · rw [← hgraph]
    have hset : (setGraph { state.graph with outputs := [] } : GraphM Node σ Unit).runFrom state = (.ok (), emptied) := rfl
    rw [reset, Stateful.runFrom_bind, Stateful.runFrom_get]
    dsimp only
    rw [Stateful.runFrom_bind_of_ok hset, Stateful.runFrom_bind_of_ok hfree]
    exact hreset
  · rwa [hgraph, Graph.held_idle] at hlends

end GraphM

end StagedArrays
