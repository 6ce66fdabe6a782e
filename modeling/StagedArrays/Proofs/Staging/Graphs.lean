import StagedArrays.Proofs.Graph.Rounds
import StagedArrays.Proofs.Staging.Nodes

namespace StagedArrays

open Stateful (Joint)

/-- A relay that succeeds has caught nothing: it notifies the dependents and
    settles the result. -/
theorem GraphM.runFrom_relay_eq_ok {ν σ : Type} [GraphNode ν] {depth : Nat} {id : NodeId} {dependents : List NodeId}
    {retention : Retention} {result : Variable} {state after : GraphState ν σ} {u : Unit}
    (h : (relay depth id dependents retention result).runFrom state = (.ok u, after)) :
    (do
      notifyAll (fun dependent => processWithin depth dependent (some id) (some result)) dependents
      settleResult id retention result).runFrom state = (.ok u, after) := by
  obtain ⟨notified, between, hnotify, h⟩ := Stateful.runFrom_bind_eq_ok.mp h
  rw [Stateful.runFrom_attempt_eq_ok] at hnotify
  rcases notified with (cause | fault) | ⟨⟩
  · obtain ⟨_, _, -, h⟩ := Stateful.runFrom_bind_eq_ok.mp h
    cases h
  · cases h
  · rw [Stateful.runFrom_bind_of_ok hnotify]
    obtain ⟨_, final, hsettle, h⟩ := Stateful.runFrom_bind_eq_ok.mp h
    cases h
    exact hsettle

/-- A run that succeeds has processed every leaf, and hands over what was
    kept. -/
theorem GraphM.runFrom_run_eq_ok {ν σ : Type} [GraphNode ν] {state after : GraphState ν σ}
    {outputs : List (NodeId × Variable)} (h : run.runFrom state = (.ok outputs, after)) :
    ∃ between, (notifyAll (fun leaf => process leaf none none) state.graph.leaves).runFrom state = (.ok (), between) ∧
      outputs = between.graph.outputs ∧ after = between.handOver := by
  rw [run, Stateful.runFrom_bind, Stateful.runFrom_get] at h
  obtain ⟨_, between, hnotify, h⟩ := Stateful.runFrom_bind_eq_ok.mp h
  rw [Stateful.runFrom_bind, Stateful.runFrom_get] at h
  cases h
  exact ⟨between, hnotify, rfl, rfl⟩

namespace Staging

variable {σ τ : Type} {c : Staging σ τ} {bindings grown : Bindings} {plan : Graph Node}

/-- Entries that are wired alike, of nodes that have taken the same operands. -/
structure PairsEntry (c : Staging σ τ) (bindings : Bindings) (entry entry' : GraphEntry Node) : Prop where
  node : c.PairsNode bindings entry.node entry'.node
  dependents_eq : entry'.dependents = entry.dependents
  retention_eq : entry'.retention = entry.retention

/-- Graphs that are wired alike, and have kept the same results so far. -/
structure PairsGraph (c : Staging σ τ) (plan : Graph Node) (bindings : Bindings) (graph graph' : Graph Node) : Prop where
  entries : List.Forall₂ (c.PairsEntry bindings) graph.entries.toList graph'.entries.toList
  outputs : List.Forall₂ (fun output output' => output'.1 = output.1 ∧ c.Pairs bindings output.2 output'.2)
    graph.outputs graph'.outputs
  wiring_eq : graph.wiring = plan.wiring
  keys : (graph.outputs.map Prod.fst).Nodup
  kept : ∀ output ∈ graph.outputs, (plan.wiring output.1).map Prod.snd = some .output

/-- Two graphs at work in step, one directly and one under an emitter. -/
structure Runs (c : Staging σ τ) (plan : Graph Node) (bindings : Bindings) (state : GraphState Node σ)
    (state' : GraphState Node τ) : Prop where
  works : c.Works bindings state.activity state'.activity
  graphs : c.PairsGraph plan bindings state.graph state'.graph

variable {graph graph' : Graph Node} {state : GraphState Node σ} {state' : GraphState Node τ} {id : NodeId}
  {source : Option NodeId} {input input' : Option Variable} {result result' : Variable}

theorem PairsEntry.grow {entry entry' : GraphEntry Node} (h : c.PairsEntry bindings entry entry')
    (hgrown : bindings ⊆ grown) : c.PairsEntry grown entry entry' :=
  ⟨h.node.grow hgrown, h.dependents_eq, h.retention_eq⟩

namespace PairsGraph

/-- Graphs that go in pairs do so where more is bound. Bindings are never taken
    back. -/
theorem grow (h : c.PairsGraph plan bindings graph graph') (hgrown : bindings ⊆ grown) :
    c.PairsGraph plan grown graph graph' :=
  ⟨h.entries.imp fun _ _ hentry => hentry.grow hgrown,
    h.outputs.imp fun _ _ houtput => ⟨houtput.1, houtput.2.grow hgrown⟩, h.wiring_eq, h.keys, h.kept⟩

/-- Nodes of one name go in pairs. If one graph has no node of a name, the other
    has none either. -/
theorem rel_entry (h : c.PairsGraph plan bindings graph graph') (id : NodeId) :
    Option.Rel (c.PairsEntry bindings) graph.entries[id.index]? graph'.entries[id.index]? := by
  rw [← Array.getElem?_toList, ← Array.getElem?_toList]
  exact rel_getElem? h.entries id.index

/-- Each entry has a counterpart under its number. -/
theorem exists_entry (h : c.PairsGraph plan bindings graph graph') {entry : GraphEntry Node}
    (hentry : graph.entries[id.index]? = some entry) :
    ∃ entry', graph'.entries[id.index]? = some entry' ∧ c.PairsEntry bindings entry entry' := by
  have hrel := h.rel_entry id
  rw [hentry] at hrel
  generalize graph'.entries[id.index]? = found at hrel ⊢
  cases hrel with
  | some hpairs => exact ⟨_, rfl, hpairs⟩

/-- Both graphs are wired as planned. -/
theorem wiring_eq' (h : c.PairsGraph plan bindings graph graph') : graph'.wiring = plan.wiring := by
  rw [← h.wiring_eq]
  funext id
  have hentry := h.rel_entry id
  rw [Graph.wiring, Graph.wiring]
  generalize graph.entries[id.index]? = entry, graph'.entries[id.index]? = entry' at hentry ⊢
  cases hentry with
  | none => rfl
  | some hentry => rw [Option.map_some, Option.map_some, hentry.dependents_eq, hentry.retention_eq]

/-- Nodes that have taken the same operands may be put in on both sides. -/
theorem setNode (h : c.PairsGraph plan bindings graph graph') (id : NodeId) {node node' : Node}
    (hnode : c.PairsNode bindings node node') : c.PairsGraph plan bindings (graph.setNode id node) (graph'.setNode id node') := by
  refine ⟨?_, h.outputs, by rw [Graph.wiring_setNode, h.wiring_eq], h.keys, h.kept⟩
  simp only [Graph.setNode, Graph.modifyEntry, Array.toList_modify]
  refine forall₂_modify h.entries (fun entry entry' hentry => ?_) id.index
  exact ⟨hnode, hentry.dependents_eq, hentry.retention_eq⟩

/-- Results that stand for each other may be kept on both sides, for a node
    whose result is an output. -/
theorem keep (h : c.PairsGraph plan bindings graph graph') (hresult : c.Pairs bindings result result')
    (hretention : (plan.wiring id).map Prod.snd = some .output) :
    c.PairsGraph plan bindings (graph.keep id result) (graph'.keep id result') := by
  refine ⟨h.entries, .cons ⟨rfl, hresult⟩ (List.rel_filter (fun output output' houtput => ?_) h.outputs), h.wiring_eq, ?_, ?_⟩
  · simp [houtput.1]
  · refine List.nodup_cons.mpr ⟨fun hmem => ?_, h.keys.sublist (List.filter_sublist.map _)⟩
    obtain ⟨output, houtput, hid⟩ := List.mem_map.mp hmem
    exact (by simpa using (List.mem_filter.mp houtput).2 : output.1 ≠ id) hid
  · intro output hmem
    rcases List.mem_cons.mp hmem with rfl | hmem
    · exact hretention
    · exact h.kept output (List.mem_filter.mp hmem).1

theorem handOver (h : c.PairsGraph plan bindings graph graph') :
    c.PairsGraph plan bindings { graph with outputs := [] } { graph' with outputs := [] } :=
  ⟨h.entries, .nil, h.wiring_eq, List.nodup_nil, fun _ hmem => (List.not_mem_nil hmem).elim⟩

theorem size_eq (h : c.PairsGraph plan bindings graph graph') : graph'.size = graph.size := by
  rw [Graph.size, Graph.size, ← Array.length_toList, ← Array.length_toList, h.entries.length_eq]

/-- The leaves are the same, as they depend on the wiring only. -/
theorem leaves_eq (h : c.PairsGraph plan bindings graph graph') : graph'.leaves = graph.leaves := by
  have hdependents {entries entries' : List (GraphEntry Node)} (h : List.Forall₂ (c.PairsEntry bindings) entries entries') :
      entries'.flatMap GraphEntry.dependents = entries.flatMap GraphEntry.dependents := by
    induction h with
    | nil => rfl
    | cons hentry _ ih => rw [List.flatMap_cons, List.flatMap_cons, hentry.dependents_eq, ih]
  rw [Graph.leaves, Graph.leaves, h.size_eq, hdependents h.entries]

end PairsGraph

/-- A node of each graph takes a step. -/
theorem joint_process (hinput : Option.Rel (c.Pairs bindings) input input') :
    Joint (c.Runs plan) (fun grown => Option.Rel (c.Pairs grown)) bindings
      (GraphM.onNode id (GraphNode.process source input) : GraphM Node σ (Option Variable))
      (GraphM.onNode id (GraphNode.process source input') : GraphM Node τ (Option Variable)) := by
  intro state state' a b after after' h hrun hrun'
  cases hentry : state.graph.entries[id.index]? with
  | none =>
    rw [GraphM.runFrom_onNode_of_none _ hentry] at hrun
    cases hrun
  | some entry =>
    obtain ⟨entry', hentry', hpairs⟩ := h.graphs.exists_entry hentry
    have hreaction := hpairs.node.reaction source hinput
    rw [GraphM.runFrom_process hentry] at hrun
    rw [GraphM.runFrom_process hentry'] at hrun'
    generalize entry.node.reaction source input = reaction at hrun hreaction
    generalize entry'.node.reaction source input' = reaction' at hrun' hreaction
    cases hreaction with
    | refuse cause => cases hrun
    | give hvalue =>
      cases hrun
      cases hrun'
      exact ⟨bindings, List.Subset.refl _, h, .some hvalue⟩
    | @hold node side operand operand' hoperand =>
      dsimp only at hrun hrun'
      rcases hhold : (BinaryNode.hold operand).runFrom state.activity with ⟨failure | held, activity⟩ <;> rw [hhold] at hrun
      · cases hrun
      rcases hhold' : (BinaryNode.hold operand').runFrom state'.activity with ⟨failure | held', activity'⟩ <;>
        rw [hhold'] at hrun'
      · cases hrun'
      cases hrun
      cases hrun'
      obtain ⟨grown, hgrown, hworks, hheld⟩ := joint_hold hoperand h.works hhold hhold'
      exact ⟨grown, hgrown, ⟨hworks, (h.graphs.grow hgrown).setNode id (.holding node side hheld)⟩, .none⟩
    | @combine node side heldSide held held' operand operand' hheld hoperand =>
      dsimp only at hrun hrun'
      rcases hcombine : (BinaryNode.combine node.op side held operand).runFrom state.activity with ⟨failure | result, activity⟩ <;>
        rw [hcombine] at hrun
      · cases hrun
      rcases hcombine' : (BinaryNode.combine node.op side held' operand').runFrom state'.activity with
        ⟨failure | result', activity'⟩ <;> rw [hcombine'] at hrun'
      · cases hrun'
      cases hrun
      cases hrun'
      obtain ⟨grown, hgrown, hworks, hresult⟩ := joint_combine node.op side hheld hoperand h.works hcombine hcombine'
      exact ⟨grown, hgrown, ⟨hworks, (h.graphs.grow hgrown).setNode id (.waiting node)⟩, .some hresult⟩

/-- A result of each graph is kept, or given up. -/
theorem joint_settle {retention : Retention} (hresult : c.Pairs bindings result result')
    (hretention : (plan.wiring id).map Prod.snd = some retention) :
    Joint (c.Runs plan) (fun _ _ _ => True) bindings (GraphM.settleResult id retention result : GraphM Node σ Unit)
      (GraphM.settleResult id retention result' : GraphM Node τ Unit) := by
  cases retention with
  | output =>
    intro state state' _ _ after after' h hrun hrun'
    rw [GraphM.runFrom_settle_output] at hrun hrun'
    cases hrun
    cases hrun'
    exact ⟨bindings, List.Subset.refl _, ⟨h.works, h.graphs.keep hresult hretention⟩, trivial⟩
  | free =>
    intro state state' _ _ after after' h hrun hrun'
    obtain ⟨_, hwired, -⟩ := Option.map_eq_some_iff.mp hretention
    rw [← h.graphs.wiring_eq] at hwired
    obtain ⟨entry, hentry, -⟩ := Option.map_eq_some_iff.mp hwired
    obtain ⟨entry', hentry', -⟩ := h.graphs.exists_entry hentry
    rw [GraphM.runFrom_settle_free result hentry] at hrun
    rw [GraphM.runFrom_settle_free result' hentry'] at hrun'
    rcases hfree : (ActivityM.free result).runFrom state.activity with ⟨failure | ⟨⟩, activity⟩ <;> rw [hfree] at hrun
    · cases hrun
    rcases hfree' : (ActivityM.free result').runFrom state'.activity with ⟨failure | ⟨⟩, activity'⟩ <;> rw [hfree'] at hrun'
    · cases hrun'
    cases hrun
    cases hrun'
    obtain ⟨grown, hgrown, hworks, -⟩ := Works.joint_noted (joint_free hresult) _ _ h.works hfree hfree'
    exact ⟨grown, hgrown, ⟨hworks, h.graphs.grow hgrown⟩, trivial⟩

/-- Notifying all dependents runs jointly if notifying one does. -/
theorem joint_notifyAll {notify : NodeId → GraphM Node σ Unit} {notify' : NodeId → GraphM Node τ Unit}
    (h : ∀ grown id, bindings ⊆ grown → Joint (c.Runs plan) (fun _ _ _ => True) grown (notify id) (notify' id))
    (ids : List NodeId) :
    Joint (c.Runs plan) (fun _ _ _ => True) bindings (GraphM.notifyAll notify ids) (GraphM.notifyAll notify' ids) := by
  induction ids generalizing bindings with
  | nil => exact .pure trivial
  | cons id rest ih =>
    exact .bind (h bindings id (List.Subset.refl _)) fun grown _ _ hgrown _ =>
      ih fun grown' id hgrown' => h grown' id (List.Subset.trans hgrown hgrown')

/-- To relay a result runs alike on both sides if each dependent does. The
    bindings may grow with each. -/
theorem joint_relay {depth : Nat} {dependents : List NodeId} {retention : Retention}
    (h : ∀ grown dependent, bindings ⊆ grown → Joint (c.Runs plan) (fun _ _ _ => True) grown
      (GraphM.processWithin depth dependent (some id) (some result) : GraphM Node σ Unit)
      (GraphM.processWithin depth dependent (some id) (some result') : GraphM Node τ Unit))
    (hresult : c.Pairs bindings result result') (hretention : (plan.wiring id).map Prod.snd = some retention) :
    Joint (c.Runs plan) (fun _ _ _ => True) bindings
      (GraphM.relay depth id dependents retention result : GraphM Node σ Unit)
      (GraphM.relay depth id dependents retention result' : GraphM Node τ Unit) :=
  .of_succeeds (.bind (joint_notifyAll h dependents) fun _ _ _ hgrown _ => joint_settle (hresult.grow hgrown) hretention)
    GraphM.runFrom_relay_eq_ok GraphM.runFrom_relay_eq_ok

/-- What follows from a step of a node of each graph. -/
theorem joint_processWithin (depth : Nat) (hinput : Option.Rel (c.Pairs bindings) input input') :
    Joint (c.Runs plan) (fun _ _ _ => True) bindings (GraphM.processWithin depth id source input : GraphM Node σ Unit)
      (GraphM.processWithin depth id source input' : GraphM Node τ Unit) := by
  induction depth generalizing bindings id source input input' with
  | zero => exact .throw _
  | succ depth ih =>
    intro state state' _ _ after after' h hrun hrun'
    rcases hnode : (GraphM.onNode id (GraphNode.process source input)).runFrom state with ⟨failure | given, between⟩
    · rw [GraphM.runFrom_processWithin_of_error hnode] at hrun
      cases hrun
    rcases hnode' : (GraphM.onNode id (GraphNode.process source input')).runFrom state' with ⟨failure | given', between'⟩
    · rw [GraphM.runFrom_processWithin_of_error hnode'] at hrun'
      cases hrun'
    obtain ⟨grown, hgrown, hruns, hgiven⟩ := joint_process hinput h hnode hnode'
    cases hgiven with
    | none =>
      rw [GraphM.runFrom_processWithin_of_none hnode] at hrun
      rw [GraphM.runFrom_processWithin_of_none hnode'] at hrun'
      cases hrun
      cases hrun'
      exact ⟨grown, hgrown, hruns, trivial⟩
    | @some result result' hresult =>
      obtain ⟨hsame, dependents, retention, hwiring⟩ := GraphM.wiring_eq_of_onNode hnode
      rw [h.graphs.wiring_eq] at hwiring
      rw [GraphM.runFrom_processWithin_of_some hnode (hruns.graphs.wiring_eq ▸ hwiring)] at hrun
      rw [GraphM.runFrom_processWithin_of_some hnode' (hruns.graphs.wiring_eq' ▸ hwiring)] at hrun'
      have hnoted : c.Runs plan grown (between.noted (.processed id result)) (between'.noted (.processed id result')) :=
        ⟨hruns.works, hruns.graphs⟩
      obtain ⟨final, hfinal, hruns', -⟩ := joint_relay (fun grown' _ hgrown' => ih (.some (hresult.grow hgrown'))) hresult
        (by rw [hwiring, Option.map_some]) hnoted hrun hrun'
      exact ⟨final, List.Subset.trans hgrown hfinal, hruns', trivial⟩

/-- Starting a leaf runs jointly: a literal passes on variables that stand for
    each other. -/
theorem joint_leaf : Joint (c.Runs plan) (fun _ _ _ => True) bindings
    (GraphM.process id none none : GraphM Node σ Unit) (GraphM.process id none none : GraphM Node τ Unit) := by
  intro state state' _ _ after after' h hrun hrun'
  have hlimit : GraphM.depthLimit state' = GraphM.depthLimit state := by
    rw [GraphM.depthLimit, GraphM.depthLimit, h.graphs.size_eq, h.works.maxSlots_eq]
  rw [GraphM.process, Stateful.runFrom_bind, Stateful.runFrom_get] at hrun hrun'
  dsimp only at hrun hrun'
  rw [hlimit] at hrun'
  exact joint_processWithin (GraphM.depthLimit state) .none h hrun hrun'

/-- Two runs of graphs that are wired alike. -/
theorem joint_run : Joint (c.Runs plan) (fun grown outputs outputs' => List.Forall₂ (fun output output' =>
      output'.1 = output.1 ∧ c.Pairs grown output.2 output'.2) outputs outputs' ∧ (outputs.map Prod.fst).Nodup ∧
        ∀ output ∈ outputs, (plan.wiring output.1).map Prod.snd = some .output) bindings
      (GraphM.run : GraphM Node σ (List (NodeId × Variable))) (GraphM.run : GraphM Node τ (List (NodeId × Variable))) := by
  intro state state' outputs outputs' after after' h hrun hrun'
  obtain ⟨between, hnotify, rfl, rfl⟩ := GraphM.runFrom_run_eq_ok hrun
  obtain ⟨between', hnotify', rfl, rfl⟩ := GraphM.runFrom_run_eq_ok hrun'
  rw [h.graphs.leaves_eq] at hnotify'
  obtain ⟨grown, hgrown, hruns, -⟩ := joint_notifyAll (fun grown leaf _ => joint_leaf) state.graph.leaves h hnotify hnotify'
  exact ⟨grown, hgrown, ⟨hruns.works, hruns.graphs.handOver⟩, hruns.graphs.outputs, hruns.graphs.keys, hruns.graphs.kept⟩

end Staging

end StagedArrays
