import StagedArrays.Proofs.Graph.Alongside
import StagedArrays.Proofs.Graph.Correctness

namespace StagedArrays

open Stateful (Couples Ends Moves)

/-- What can be told of a cycle: the outputs with their elements, or why there
    are none, and how many slots are in use and there are. -/
structure Report where
  outcome : Except (Failure GraphError) (List (NodeId × Variable × Outcome (List Numeric)))
  liveSlots : Nat
  totalSlots : Nat
  deriving DecidableEq

namespace GraphM

variable {σ : Type}

/-- The outputs of a run with their elements. Two runs are compared by these,
    since variables tell only where elements are. -/
def contents (heap : Heap) (outputs : List (NodeId × Variable)) : List (NodeId × Variable × Outcome (List Numeric)) :=
  outputs.map fun (id, v) => (id, v, v.elements heap)

/-- A graph is run, its outputs are given back in some order, and it is
    reset. -/
def cycle (order : List (NodeId × Variable) → List (NodeId × Variable)) : GraphM Node σ Report := do
  let outcome ← Stateful.attempt run
  let heap := (← get).activity.storage.world.heap
  match outcome with
  | .error (.fault fault) => throw (.fault fault)
  | _ =>
    freeOutputs (order (outcome.toOption.getD []))
    reset
    let allocator := (← get).activity.storage.allocator
    return ⟨outcome.map (contents heap), allocator.liveSlots, allocator.totalSlots⟩

/-- One cycle after the other, each with an order of its own. The reports of all
    of them are given back together. -/
def cycles : List (List (NodeId × Variable) → List (NodeId × Variable)) → GraphM Node σ (List Report)
  | [] => return []
  | order :: orders => do
    let report ← cycle order
    return report :: (← cycles orders)

end GraphM

namespace SlotAllocator

variable {allocator other : SlotAllocator} {slots : List Nat}

/-- If nothing is lent, no slot is live. -/
theorem liveSlots_of_lends (h : allocator.Lends []) : allocator.liveSlots = 0 := by
  refine Array.countP_eq_zero.mpr fun slot hmem => ?_
  obtain ⟨index, hlt, rfl⟩ := Array.mem_iff_getElem.mp hmem
  intro hlive
  have hlent := (h.isLive_iff index).mp (isLive_eq_true.mpr ⟨_, Array.getElem?_eq_getElem hlt, hlive⟩)
  exact List.not_mem_nil hlent

/-- A slot is given by what it is apart from being handed out, and by whether it
    is. -/
theorem getElem?_slots (allocator : SlotAllocator) (index : Nat) : allocator.slots.toList[index]? =
    allocator.statics[index]?.map fun slot => { slot with live := allocator.isLive index } := by
  rw [getElem?_statics, Option.map_map, isLive, Array.getElem?_toList]
  cases allocator.slots[index]? <;> rfl

theorem live_eq_false_of_mem_statics {slot : Slot} (hmem : slot ∈ allocator.statics) : slot.live = false := by
  obtain ⟨old, -, rfl⟩ := List.mem_map.mp hmem
  rfl

/-- Where the same slots are handed out, those that are only on one side are
    free. -/
theorem slots_eq_of_lends (h : allocator.Lends slots) (h' : other.Lends slots) (hgrows : allocator.statics <+: other.statics) :
    other.slots.toList = allocator.slots.toList ++ other.statics.drop allocator.totalSlots := by
  obtain ⟨rest, hrest⟩ := hgrows
  have hdrop : other.statics.drop allocator.totalSlots = rest := by
    rw [← hrest, ← length_statics, List.drop_left]
  have hlength : allocator.slots.toList.length = allocator.statics.length := by
    rw [length_statics, Array.length_toList]
    rfl
  refine List.ext_getElem? fun index => ?_
  have hsame : other.isLive index = allocator.isLive index := h.isLive_eq h' index
  rw [hdrop, getElem?_slots, hsame, ← hrest]
  by_cases hlt : index < allocator.statics.length
  · rw [List.getElem?_append_left hlt, List.getElem?_append_left (hlength ▸ hlt), getElem?_slots]
  · have hle := Nat.le_of_not_lt hlt
    have hfree : allocator.isLive index = false := by
      rw [isLive, Array.getElem?_eq_none (by rwa [length_statics] at hle)]
      rfl
    rw [List.getElem?_append_right hle, List.getElem?_append_right (hlength ▸ hle), hlength, hfree]
    refine (Option.map_congr fun slot hslot => ?_).trans Option.map_id'
    have hmem : slot ∈ other.statics := hrest ▸ List.mem_append_right _ (List.mem_of_getElem? hslot)
    rw [← live_eq_false_of_mem_statics hmem]

end SlotAllocator

namespace GraphState

variable {σ : Type} {state ran after : GraphState Node σ} {plan : Graph Node} {origin : Heap} {slots : List Slot}
  {outputs : List (NodeId × Variable)} {lent : List Nat} {maxSlots : Nat}

/-- Slots are handed out or taken back, and nothing else happens to storage. The
    graph may change in the meantime. -/
def Relabels (before after : GraphState Node σ) : Prop := before.activity.storage.Relabels after.activity.storage

instance : IsPreorder (GraphState Node σ) Relabels where
  refl state := refl_of Storage.Relabels state.activity.storage
  trans _ _ _ h h' := trans_of Storage.Relabels h h'

/-- Freeing a variable changes nothing but the state of its slot. -/
theorem relabels_free (v : Variable) : Moves Relabels (GraphM.onActivity (.free v) : GraphM Node σ Unit) := by
  intro state
  rw [GraphM.runFrom_onActivity]
  exact (ActivityM.relabels_free v state.activity).always

theorem relabels_freeOutputs : ∀ outputs, Moves Relabels (GraphM.freeOutputs outputs : GraphM Node σ Unit)
  | [] => .pure _
  | (_, output) :: rest => .bind (relabels_free output) fun _ => relabels_freeOutputs rest

/-- A reset of the graph touches no storage. -/
theorem relabels_reset : Moves Relabels (GraphM.reset : GraphM Node σ Unit) := by
  have hnode (id : NodeId) : Moves Relabels (GraphM.onNode id GraphNode.reset : GraphM Node σ Unit) := by
    intro state
    have hself : state.Relabels state := refl_of Relabels state
    cases hentry : state.graph.entries[id.index]? with
    | none =>
      rw [GraphM.runFrom_onNode_of_none _ hentry]
      exact hself
    | some entry =>
      rw [GraphM.runFrom_reset_node hentry]
      cases entry.node.held? with
      | none => exact hself
      | some held => exact relabels_free held state
  refine .bind (.of_eq fun _ => rfl) fun state => ?_
  refine .bind (fun before => refl_of Storage.Relabels before.activity.storage) fun _ => ?_
  exact .bind (relabels_freeOutputs _) fun _ => GraphM.moves_notifyAll hnode _

/-- Between two cycles: the graph is as it was, all slots are there, and those
    that have not been lent are free. -/
structure Rested (plan : Graph Node) (maxSlots : Nat) (lent : List Nat) (origin : Heap) (slots : List Slot)
    (state : GraphState Node σ) : Prop extends Sheltered origin state where
  graph_eq : state.graph = plan
  maxSlots_eq : state.activity.storage.allocator.maxSlots = maxSlots
  lends : state.activity.storage.allocator.Lends lent
  statics_eq : state.activity.storage.allocator.statics = slots

/-- After a run: apart from its outputs, only the graph itself has slots in
    use. -/
structure Ran (plan : Graph Node) (lent : List Nat) (origin : Heap) (outputs : List (NodeId × Variable))
    (state : GraphState Node σ) : Prop extends Sheltered origin state where
  idle_eq : state.graph.idle = plan
  lends : state.activity.storage.allocator.Lends
    (Variable.slotsOf (outputs.map Prod.snd) ++ (Variable.slotsOf (state.inUse []) ++ lent))

/-- At rest a graph can start over. Nothing is lent, and no node holds
    anything. -/
theorem Rested.ready (h : Rested plan maxSlots [] origin slots state) (hliterals : plan.Grounded origin) :
    Ready plan [] origin state := by
  obtain rfl := h.graph_eq
  exact h.toSheltered.ready hliterals h.lends

/-- Once the outputs are given back and the graph is reset, there is rest. The
    outputs may be given back in any order. -/
theorem Ran.rests (h : Ran plan lent origin outputs ran) {others : List (NodeId × Variable)} (hperm : others.Perm outputs) :
    ∃ freed after, (GraphM.freeOutputs others).runFrom ran = (.ok (), freed) ∧ GraphM.reset.runFrom freed = (.ok (), after) ∧
      ran.Relabels after ∧ Rested plan ran.activity.storage.allocator.maxSlots lent origin ran.activity.storage.allocator.statics after := by
  have hlends := h.lends.perm (((hperm.symm.map Prod.snd).flatMap_right Variable.slots).append_right _)
  obtain ⟨activity, hfree, hlends⟩ := GraphM.freeOutputs_lends others hlends
  let freed : GraphState Node σ := ⟨ran.graph, activity⟩
  have hlends' : freed.activity.storage.allocator.Lends (Variable.slotsOf (freed.inUse []) ++ lent) := hlends
  obtain ⟨activity', hreset, hlends⟩ := GraphM.reset_lends hlends'
  have hrelabels := relabels_freeOutputs others ran
  have hrelabels' := relabels_reset freed
  rw [hfree] at hrelabels
  rw [hreset] at hrelabels'
  have hboth : ran.activity.storage.Relabels activity'.storage := trans_of Storage.Relabels hrelabels hrelabels'
  refine ⟨freed, _, hfree, hreset, hboth, ?_, h.idle_eq, hboth.maxSlots_eq, hlends, hboth.statics_eq⟩
  exact h.toSheltered.relabels hboth

/-- What is in use at the end of a run is its outputs, and what the graph
    holds. -/
theorem slotsOf_inUse_perm (state : GraphState Node σ) : (Variable.slotsOf (state.inUse [⟨none, none, []⟩])).Perm
    (Variable.slotsOf (state.graph.outputs.map Prod.snd) ++ Variable.slotsOf (state.handOver.inUse [])) := by
  have hperm : (state.inUse [⟨none, none, []⟩]).Perm (state.graph.outputs.map Prod.snd ++ state.handOver.inUse []) := by
    have hrest : state.handOver.inUse [] = state.graph.held := List.append_nil _
    rw [hrest]
    exact List.perm_append_comm
  have hslots := hperm.flatMap_right Variable.slots
  rwa [List.flatMap_append] at hslots

/-- A run that ends with nothing in flight has given back each slot it took,
    except those of the results it hands over. -/
theorem ran_of_steady {limit start : Nat} (h : Steady plan limit start [] origin [⟨none, none, []⟩] state)
    (hliterals : plan.Unmanaged) : Ran plan [] origin state.graph.outputs state.handOver := by
  refine ⟨⟨h.pooled, h.get_eq⟩, h.idle_eq, ?_⟩
  have haccounts := h.accounts
  rw [Graph.slotsOf_waiting hliterals] at haccounts
  rw [← List.append_assoc]
  exact haccounts.perm ((slotsOf_inUse_perm state).append_right [])

/-- A run that has stopped leaves no outputs behind. Its books tell what is
    still held. -/
theorem ran_of_stopped {limit start : Nat} (h : Stopped plan limit start [] origin [⟨none, none, []⟩] state)
    (hliterals : plan.Unmanaged) : Ran plan [] origin [] state := by
  have haccounts := h.accounts
  rw [Graph.slotsOf_waiting hliterals] at haccounts
  exact ⟨h.toSheltered, h.idle_eq, haccounts⟩

/-- Two runs begin side by side where the second has the slots of the first and
    those still to be made, and the literals mean the same on both sides. -/
theorem together_start {first again : GraphState Node σ} (hidle : plan.idle = plan) (hexact : plan.Exact)
    (hfirst : Ready plan lent origin first) (hagain : Ready plan lent origin again)
    (hmax : again.activity.storage.allocator.maxSlots = first.activity.storage.allocator.maxSlots)
    (hgrows : first.activity.storage.allocator.statics <+: again.activity.storage.allocator.statics)
    (hbounded : again.activity.storage.allocator.totalSlots ≤ again.activity.storage.allocator.maxSlots)
    (hagrees : ∀ v ∈ plan.waiting [], v.Agrees first.activity.storage.world.heap again.activity.storage.world.heap) :
    Together plan (GraphM.depthLimit first) first.activity.journal.size again.activity.journal.size lent origin
      again.activity.storage.allocator.statics [⟨none, none, plan.leaves⟩] first again := by
  have hgraph : again.graph = first.graph := hagain.graph_eq.trans hfirst.graph_eq.symm
  have hlimit : GraphM.depthLimit again = GraphM.depthLimit first := by rw [GraphM.depthLimit, hgraph, hmax]; rfl
  have hsteady' := hagain.steady hidle hexact
  rw [hlimit] at hsteady'
  refine ⟨⟨⟨hgraph, hmax, ?_, ?_, ?_⟩, fun v hmem => ?_⟩, hfirst.steady hidle hexact, hsteady', ?_, fun v hmem => ?_⟩
  · exact SlotAllocator.slots_eq_of_lends hfirst.lends hagain.lends hgrows
  · exact fun slot => SlotAllocator.live_eq_false_of_mem_statics
  · rw [SlotAllocator.length_statics, ← hmax]
    exact hbounded
  · have hinUse := inUse_start (show first.graph.idle = first.graph by rw [hfirst.graph_eq, hidle])
    rw [hfirst.graph_eq] at hinUse
    rw [hinUse] at hmem
    exact (List.not_mem_nil hmem).elim
  · rw [Activity.firedSince_size, Activity.firedSince_size]
  · rw [Activity.firedSince_size] at hmem
    exact hagrees v hmem

/-- Literals that have no slots mean the same to all that leave the first
    buffers as they were. -/
theorem Sheltered.agrees_waiting {first again : GraphState Node σ} (h : Sheltered origin first) (h' : Sheltered origin again)
    (hliterals : plan.Grounded origin) (fired : List NodeId) :
    ∀ v ∈ plan.waiting fired, v.Agrees first.activity.storage.world.heap again.activity.storage.world.heap := by
  intro v hmem
  have hcarries := h.carries_waiting hliterals fired v hmem
  refine Variable.agrees_of_alike hcarries.sound (.of_get_eq fun ref offset hdata => ?_)
  obtain ⟨id, entry, -, hentry, hnode⟩ := Graph.mem_waiting.mp hmem
  have hlt := hliterals.lt_size hentry hnode hdata
  rw [h'.get_eq ref hlt, h.get_eq ref hlt]

end GraphState

/-- Once as many slots are made as there are going to be, they are the same on
    both sides. -/
theorem Storage.Trails.statics_eq {σ : Type} {storage other : Storage σ}
    (h : storage.Trails storage.allocator.statics other) : other.allocator.statics = storage.allocator.statics := by
  have hrest : storage.allocator.statics.drop storage.allocator.totalSlots = [] :=
    List.drop_eq_nil_of_le (Nat.le_of_eq storage.allocator.length_statics)
  rw [SlotAllocator.statics, h.slots_eq, hrest, List.append_nil]
  rfl

namespace GraphM

variable {σ : Type} {before ran : GraphState Node σ} {plan : Graph Node} {origin : Heap} {lent : List Nat}
  {outcome : Except (Failure GraphError) (List (NodeId × Variable))}

/-- What a run from rest leaves behind. It may have succeeded or ended with an
    error, but not with a fault. -/
theorem ran_of_run (hliterals : plan.Unmanaged) (hexact : plan.Exact) (hidle : plan.idle = plan)
    (hready : GraphState.Ready plan [] origin before) (hrun : run.runFrom before = (outcome, ran))
    (hfault : ∀ fault, outcome ≠ .error (.fault fault)) : GraphState.Ran plan [] origin (outcome.toOption.getD []) ran := by
  obtain rfl := hready.graph_eq
  have hends := GraphState.steady_invariant.run_ends (hready.steady hidle hexact)
  rw [hrun] at hends
  rcases outcome with (cause | fault) | outputs
  · exact GraphState.ran_of_stopped (hends.error cause rfl) hliterals
  · exact (hfault fault rfl).elim
  · obtain ⟨ended, hend, rfl, rfl⟩ := hends.ok outputs rfl
    exact GraphState.ran_of_steady hend hliterals

/-- A cycle tells what its run came to, and leaves the graph at rest. So another
    cycle can follow it. -/
theorem runFrom_cycle (hrun : run.runFrom before = (outcome, ran)) (hfault : ∀ fault, outcome ≠ .error (.fault fault))
    (hran : GraphState.Ran plan [] origin (outcome.toOption.getD []) ran)
    {order : List (NodeId × Variable) → List (NodeId × Variable)} (horder : ∀ outputs, (order outputs).Perm outputs) :
    ∃ after, (cycle order).runFrom before =
        (.ok ⟨outcome.map (contents ran.activity.storage.world.heap), 0, ran.activity.storage.allocator.totalSlots⟩, after) ∧
      GraphState.Rested plan ran.activity.storage.allocator.maxSlots [] origin ran.activity.storage.allocator.statics after := by
  obtain ⟨freed, after, hfree, hreset, -, hrested⟩ := hran.rests (horder (outcome.toOption.getD []))
  refine ⟨after, ?_, hrested⟩
  have htotal : after.activity.storage.allocator.totalSlots = ran.activity.storage.allocator.totalSlots := by
    rw [← SlotAllocator.length_statics, hrested.statics_eq, SlotAllocator.length_statics]
  have hlive : after.activity.storage.allocator.liveSlots = 0 := SlotAllocator.liveSlots_of_lends hrested.lends
  have hrest (heap : Heap) : (do
      freeOutputs (order (outcome.toOption.getD []))
      reset
      let allocator := (← get).activity.storage.allocator
      return ⟨outcome.map (contents heap), allocator.liveSlots, allocator.totalSlots⟩ : GraphM Node σ Report).runFrom ran =
        (.ok ⟨outcome.map (contents heap), 0, ran.activity.storage.allocator.totalSlots⟩, after) := by
    rw [Stateful.runFrom_bind_of_ok hfree, Stateful.runFrom_bind_of_ok hreset, Stateful.runFrom_bind, Stateful.runFrom_get]
    dsimp only
    rw [hlive, htotal]
    rfl
  rw [cycle, Stateful.runFrom_bind, Stateful.runFrom_attempt, hrun]
  dsimp only
  rw [Stateful.runFrom_bind, Stateful.runFrom_get]
  rcases outcome with (cause | fault) | outputs
  · exact hrest ran.activity.storage.world.heap
  · exact (hfault fault rfl).elim
  · exact hrest ran.activity.storage.world.heap

/-- A run from rest comes to the same as the one that made the slots. Later runs
    find a slot where the first made one, and otherwise go along with it step by
    step. -/
theorem run_again {first again : GraphState Node σ} (hexact : plan.Exact) (hidle : plan.idle = plan)
    (hfirst : GraphState.Ready plan lent origin first) (hagain : GraphState.Ready plan lent origin again)
    (hbounded : first.activity.storage.allocator.totalSlots ≤ first.activity.storage.allocator.maxSlots)
    (hagrees : ∀ v ∈ plan.waiting [], v.Agrees first.activity.storage.world.heap again.activity.storage.world.heap)
    (hrun : run.runFrom first = (outcome, ran)) (hfault : ∀ fault, outcome ≠ .error (.fault fault))
    (hmax : again.activity.storage.allocator.maxSlots = ran.activity.storage.allocator.maxSlots)
    (hstatics : again.activity.storage.allocator.statics = ran.activity.storage.allocator.statics) :
    ∃ ran', run.runFrom again = (outcome, ran') ∧
      ran'.activity.storage.allocator.maxSlots = ran.activity.storage.allocator.maxSlots ∧
      ran'.activity.storage.allocator.statics = ran.activity.storage.allocator.statics ∧
      outcome.map (contents ran'.activity.storage.world.heap) = outcome.map (contents ran.activity.storage.world.heap) := by
  have hgrows := GraphState.extends_run first hfirst.pooled.regular
  rw [hrun] at hgrows
  have htotal : again.activity.storage.allocator.totalSlots ≤ again.activity.storage.allocator.maxSlots := by
    rw [← SlotAllocator.length_statics, hstatics, SlotAllocator.length_statics, hmax]
    exact hgrows.bounded hbounded
  have htogether := GraphState.together_start hidle hexact hfirst hagain (hmax.trans hgrows.maxSlots_eq)
    (hstatics ▸ hgrows.statics_grow) htotal hagrees
  rw [hstatics, ← hfirst.graph_eq] at htogether
  have hlater : GraphState.Later ran.activity.storage.allocator.statics ((run : GraphM Node σ _).runFrom first).2 := by
    rw [hrun]
    exact fun _ => List.prefix_refl _
  have hcouples := GraphState.together_lockstep.run_couples (by rw [hagain.graph_eq, hfirst.graph_eq]) htogether
    (fun h => by rw [h.graph_eq]) (fun _ => id) hlater
  rw [hrun] at hcouples
  rcases hrun' : (run : GraphM Node σ _).runFrom again with ⟨outcome', ran'⟩
  rw [hrun'] at hcouples
  obtain rfl : outcome' = outcome := hcouples.outcome_eq hfault
  refine ⟨ran', rfl, ?_⟩
  rcases outcome' with (cause | fault) | outputs
  · have hhalted := hcouples.error cause rfl
    exact ⟨hhalted.trails.maxSlots_eq, hhalted.trails.statics_eq, rfl⟩
  · exact (hfault fault rfl).elim
  · obtain ⟨s', t', hend, rfl, rfl, rfl⟩ := hcouples.ok outputs rfl
    refine ⟨hend.trails.maxSlots_eq, hend.trails.statics_eq, congrArg Except.ok (List.map_congr_left fun (id, v) hmem => ?_)⟩
    have hagrees := hend.agrees v (List.mem_append_right _ (List.mem_map_of_mem hmem))
    exact congrArg (id, v, ·) hagrees.elements_eq

/-- A cycle that comes to an end is followed by the others. What it has told
    comes first. -/
theorem runFrom_cycles_cons {order : List (NodeId × Variable) → List (NodeId × Variable)} {report : Report}
    {after : GraphState Node σ} (h : (cycle order).runFrom before = (.ok report, after))
    (orders : List (List (NodeId × Variable) → List (NodeId × Variable))) :
    ((cycles (order :: orders)).runFrom before).1 = (((cycles orders).runFrom after).1).map (report :: ·) := by
  rw [cycles, Stateful.runFrom_bind_of_ok h, Stateful.runFrom_bind]
  rcases (cycles orders).runFrom after with ⟨failure | reports, last⟩ <;> rfl

/-- From rest, each further cycle tells the same as the one that made the
    slots. -/
theorem cycles_again {first : GraphState Node σ} (hliterals : plan.Grounded origin) (hexact : plan.Exact)
    (hidle : plan.idle = plan) (hfirst : GraphState.Ready plan [] origin first)
    (hbounded : first.activity.storage.allocator.totalSlots ≤ first.activity.storage.allocator.maxSlots)
    (hrun : run.runFrom first = (outcome, ran)) (hfault : ∀ fault, outcome ≠ .error (.fault fault)) :
    ∀ (orders : List (List (NodeId × Variable) → List (NodeId × Variable))) (again : GraphState Node σ),
      (∀ order ∈ orders, ∀ outputs, (order outputs).Perm outputs) →
      GraphState.Rested plan ran.activity.storage.allocator.maxSlots [] origin ran.activity.storage.allocator.statics again →
      ((cycles orders).runFrom again).1 = .ok (List.replicate orders.length
        ⟨outcome.map (contents ran.activity.storage.world.heap), 0, ran.activity.storage.allocator.totalSlots⟩) := by
  intro orders
  induction orders with
  | nil => exact fun _ _ _ => rfl
  | cons order orders ih =>
    intro again horders hrested
    obtain ⟨horder, horders⟩ := List.forall_mem_cons.mp horders
    have hready := hrested.ready hliterals
    obtain ⟨ran', hrun', hmax, hstatics, hcontents⟩ := run_again hexact hidle hfirst hready hbounded
      (hfirst.agrees_waiting hready.toSheltered hliterals []) hrun hfault hrested.maxSlots_eq hrested.statics_eq
    have hran := ran_of_run hliterals.unmanaged hexact hidle hready hrun' hfault
    obtain ⟨after, hcycle, hrested'⟩ := runFrom_cycle hrun' hfault hran horder
    rw [hmax, hstatics] at hrested'
    have htotal : ran'.activity.storage.allocator.totalSlots = ran.activity.storage.allocator.totalSlots := by
      rw [← SlotAllocator.length_statics, hstatics, SlotAllocator.length_statics]
    rw [runFrom_cycles_cons hcycle, ih after horders hrested', hcontents, htotal]
    rfl

/-- Cycle after cycle, a graph comes to the same and gives all slots back, and
    only the first of them makes any. -/
theorem cycles_eq_replicate (hactive : before.activity.storage.world.contexts.head? = some .compute)
    (hslots : before.activity.storage.allocator.slots = #[]) (hidle : before.graph.idle = before.graph)
    (hliterals : before.graph.Grounded before.activity.storage.world.heap) (hexact : before.graph.Exact)
    (hrun : run.runFrom before = (outcome, ran)) (orders : List (List (NodeId × Variable) → List (NodeId × Variable)))
    (horders : ∀ order ∈ orders, ∀ outputs, (order outputs).Perm outputs) :
    (∀ fault, outcome = .error (.fault fault) → orders ≠ [] → ((cycles orders).runFrom before).1 = .error (.fault fault)) ∧
      ((∀ fault, outcome ≠ .error (.fault fault)) → ((cycles orders).runFrom before).1 = .ok (List.replicate orders.length
        ⟨outcome.map (contents ran.activity.storage.world.heap), 0, ran.activity.storage.allocator.totalSlots⟩)) := by
  have hready := (GraphState.sheltered_of_fresh hactive hslots).ready hliterals (SlotAllocator.lends_nil hslots)
  have hbounded : before.activity.storage.allocator.totalSlots ≤ before.activity.storage.allocator.maxSlots := by
    rw [SlotAllocator.totalSlots, hslots]
    exact Nat.zero_le _
  cases orders with
  | nil => exact ⟨fun _ _ hne => (hne rfl).elim, fun _ => rfl⟩
  | cons order orders =>
    obtain ⟨horder, horders⟩ := List.forall_mem_cons.mp horders
    refine ⟨?_, fun hfault => ?_⟩
    · rintro fault rfl -
      rw [cycles, Stateful.runFrom_bind, cycle, Stateful.runFrom_bind, Stateful.runFrom_attempt, hrun]
      rfl
    · have hran := ran_of_run hliterals.unmanaged hexact hidle hready hrun hfault
      obtain ⟨after, hcycle, hrested⟩ := runFrom_cycle hrun hfault hran horder
      rw [runFrom_cycles_cons hcycle,
        cycles_again hliterals hexact hidle hready hbounded hrun hfault orders after horders hrested]
      rfl

/-- Two cycles of the difference, the second of which gives its outputs back in
    another order, tell the same. -/
theorem cycles_difference : ((cycles [id, List.reverse]).runFrom (difference 2)).1 = .ok (List.replicate 2
    ⟨.ok [(⟨1⟩, ⟨some ⟨1⟩, ⟨.i32, ⟨[2], [1]⟩, .host ⟨2⟩ 0⟩⟩, .ok [.i32 2, .i32 4])], 0, 2⟩) := by
  have hidle : (difference 2).graph.idle = (difference 2).graph := by simp [difference, Graph.idle, Node.idle]
  have hcontents : (run.runFrom (difference 2)).1.map (contents (run.runFrom (difference 2)).2.activity.storage.world.heap) =
      .ok [(⟨1⟩, ⟨some ⟨1⟩, ⟨.i32, ⟨[2], [1]⟩, .host ⟨2⟩ 0⟩⟩, .ok [.i32 2, .i32 4])] := by decide +kernel
  have htotal : (run.runFrom (difference 2)).2.activity.storage.allocator.totalSlots = 2 := by decide +kernel
  have hfault : ∀ fault, (run.runFrom (difference 2)).1 ≠ .error (.fault fault) := by
    intro fault heq
    rw [heq] at hcontents
    cases hcontents
  have horders : ∀ order ∈ [id, List.reverse], ∀ outputs : List (NodeId × Variable), (order outputs).Perm outputs := by
    simp [List.reverse_perm]
  have hrun : run.runFrom (difference 2) = ((run.runFrom (difference 2)).1, (run.runFrom (difference 2)).2) := rfl
  have hcycles := (cycles_eq_replicate rfl rfl hidle (literals_difference 2).toGrounded (exact_difference 2) hrun _ horders).2
    hfault
  rw [hcontents, htotal] at hcycles
  exact hcycles

/-- With one slot there is none for the output, in the first cycle as in any
    other. -/
example : ((cycles [id, id, id]).runFrom (difference 1)).1 =
    .ok (List.replicate 3 ⟨.error (.error (.allocator (.exhausted 1))), 0, 1⟩) := by decide +kernel

end GraphM

end StagedArrays
