import StagedArrays.Proofs.Graph.Twin

namespace StagedArrays

open Stateful (Couples Ends Moves)

namespace GraphState

variable {σ : Type} {s t s' t' : GraphState Node σ} {plan : Graph Node} {limit start start' : Nat} {origin : Heap}
  {slots : List Slot} {rounds : List Round} {id : NodeId} {source : Option NodeId} {input : Option Variable}
  {rest rest' : List NodeId} {result : Variable} {lent : List Nat}

/-- Two graphs at work are at the same point, the second with the slots that the
    first is going to have. -/
structure Beside (slots : List Slot) (s t : GraphState Node σ) : Prop where
  graph_eq : t.graph = s.graph
  trails : s.activity.storage.Trails slots t.activity.storage

/-- Variables in use mean the same to two graphs at work. Elsewhere their
    storage may differ. -/
structure Twin (slots : List Slot) (rounds : List Round) (s t : GraphState Node σ) : Prop extends Beside slots s t where
  agrees : ∀ v ∈ s.inUse rounds, v.Agrees s.activity.storage.world.heap t.activity.storage.world.heap

/-- Two steady runs side by side. What they have reported since their starts is
    the same. -/
structure Together (plan : Graph Node) (limit start start' : Nat) (lent : List Nat) (origin : Heap) (slots : List Slot)
    (rounds : List Round) (s t : GraphState Node σ) : Prop extends Twin slots rounds s t where
  steady : Steady plan limit start lent origin rounds s
  steady' : Steady plan limit start' lent origin rounds t
  fired_eq : t.activity.firedSince start' = s.activity.firedSince start
  waits : ∀ v ∈ plan.waiting (s.activity.firedSince start), v.Agrees s.activity.storage.world.heap t.activity.storage.world.heap

theorem inUse_eq (h : t.graph = s.graph) (rounds : List Round) : t.inUse rounds = s.inUse rounds := by
  rw [inUse, inUse, h]

theorem Together.shares (h : Together plan limit start start' lent origin slots rounds s t) {v : Variable}
    (hmem : v ∈ s.inUse rounds) : BinaryNode.Shares origin.buffers.size s.activity t.activity v :=
  ⟨h.steady.uses hmem, h.steady'.uses (inUse_eq h.graph_eq rounds ▸ hmem), h.agrees v hmem⟩

theorem Together.shares_waiting (h : Together plan limit start start' lent origin slots rounds s t) {v : Variable}
    (hmem : v ∈ plan.waiting (s.activity.firedSince start)) : BinaryNode.Shares origin.buffers.size s.activity t.activity v :=
  ⟨h.steady.uses_waiting hmem, h.steady'.uses_waiting (h.fired_eq ▸ hmem), h.waits v hmem⟩

/-- What a step of a node makes on both sides is the same: a result, or what it
    holds. -/
structure Makes (slots : List Slot) (id : NodeId) (given : Option Variable) (s t : GraphState Node σ) : Prop
    extends Beside slots s t where
  agrees : ∀ v, (given = some v ∨ ∃ found, s.graph.entries[id.index]? = some found ∧ found.node.held? = some v) →
    v.Agrees s.activity.storage.world.heap t.activity.storage.world.heap

/-- There are no more slots than there are going to be. The slots that a run
    makes are known from its end. -/
def Later (slots : List Slot) (state : GraphState Node σ) : Prop := state.activity.Later slots

/-- A node does the same on both sides. It succeeds on both or fails on both
    with the same error. -/
theorem Together.process_couples (h : Together plan limit start start' lent origin slots (⟨source, input, id :: rest⟩ :: rounds) s t)
    (hlater : Later slots ((GraphM.onNode id (GraphNode.process source input)).runFrom s).2) :
    Couples (fun given s' t' => Makes slots id given s' t') (fun _ s' t' => Beside slots s' t') True
      ((GraphM.onNode id (GraphNode.process source input)).runFrom s)
      ((GraphM.onNode id (GraphNode.process source input)).runFrom t) := by
  obtain ⟨pending, hprogress⟩ := h.steady.progress
  obtain ⟨entry, hentry, hnew, haccepts⟩ := hprogress.accepts
  have hliteral {value : Variable} (hnode : entry.node = .literal value) :
      value.Agrees s.activity.storage.world.heap t.activity.storage.world.heap :=
    h.waits value (h.steady.mem_waiting hentry hnew hnode)
  have hentry' : t.graph.entries[id.index]? = some entry := by rw [h.graph_eq, hentry]
  have hheld {v : Variable} (hheld : entry.node.held? = some v) : BinaryNode.Shares origin.buffers.size s.activity t.activity v :=
    h.shares (mem_inUse_of_held hentry hheld _)
  have hinput {v : Variable} (hinput : input = some v) : BinaryNode.Shares origin.buffers.size s.activity t.activity v :=
    h.shares (List.mem_append_left _ (List.mem_append_left _ (hinput ▸ List.mem_cons_self)))
  have hsetNode (node : Node) : (s.graph.setNode id node).entries[id.index]? = some { entry with node } := by
    rw [Graph.getElem?_setNode, if_pos rfl, hentry, Option.map_some]
  rw [GraphM.runFrom_process hentry] at hlater ⊢
  rw [GraphM.runFrom_process hentry', h.graph_eq]
  generalize hnode : entry.node = node at haccepts hheld hliteral hlater ⊢
  generalize node.reaction source input = reaction at haccepts hlater ⊢
  cases haccepts with
  | give value =>
    refine .of_ok ⟨h.toBeside, fun v hv => ?_⟩
    rcases hv with hv | ⟨found, hfound, hv⟩
    · cases hv
      exact hliteral rfl
    · cases hentry.symm.trans hfound
      rw [hnode] at hv
      cases hv
  | hold node side operand hnone =>
    dsimp only at hlater ⊢
    have hlater' : Activity.Later slots ((BinaryNode.hold operand).runFrom s.activity).2 := by
      rcases hrun : (BinaryNode.hold operand).runFrom s.activity with ⟨failure | held, activity⟩
      · rw [hrun] at hlater
        exact hlater
      · rw [hrun] at hlater
        exact hlater
    have hcouples := BinaryNode.hold_couples h.trails h.steady.pooled h.steady'.pooled (hinput rfl) hlater'
    refine hcouples.elim (fun held activity activity' hheld => ?_) (fun cause activity activity' htrails => ?_)
      fun fault activity run' _ => ?_
    · obtain ⟨htrails, hagrees⟩ := hheld
      refine .of_ok ⟨⟨rfl, htrails⟩, fun v hv => ?_⟩
      rcases hv with hv | ⟨found, hfound, hv⟩
      · cases hv
      · cases (hsetNode _).symm.trans hfound
        cases hv
        exact hagrees
    · exact .of_error ⟨rfl, htrails⟩
    · exact .of_fault trivial
  | combine node side held operand hside =>
    dsimp only at hlater ⊢
    have hheld' : (Node.binary node).held? = some held := by rw [Node.held?, hside, Option.map_some]
    have hcouples := BinaryNode.combine_couples node.op side h.trails h.steady.pooled h.steady'.pooled (hheld hheld') (hinput rfl)
      hlater
    refine hcouples.elim (fun result activity activity' hresult => ?_) (fun cause activity activity' htrails => ?_)
      fun fault activity run' _ => ?_
    · obtain ⟨htrails, hagrees⟩ := hresult
      refine .of_ok ⟨⟨rfl, htrails⟩, fun v hv => ?_⟩
      rcases hv with hv | ⟨found, hfound, hv⟩
      · cases hv
        exact hagrees
      · cases (hsetNode _).symm.trans hfound
        cases hv
    · exact .of_error ⟨rfl, htrails⟩
    · exact .of_fault trivial

/-- Two runs that have come to a stop side by side. Results are still settled
    then, but none comes up. -/
structure Halted (plan : Graph Node) (limit start start' : Nat) (lent : List Nat) (origin : Heap) (slots : List Slot)
    (rounds : List Round) (s t : GraphState Node σ) : Prop extends Beside slots s t where
  stopped : Stopped plan limit start lent origin rounds s
  stopped' : Stopped plan limit start' lent origin rounds t

/-- What both had in use is not changed by what both go on to do. Slots in use
    are left alone. -/
theorem Together.agrees_of_proceeds (h : Together plan limit start start' lent origin slots rounds s t)
    (hproceeds : s.activity.storage.Proceeds origin.buffers.size s'.activity.storage)
    (hproceeds' : t.activity.storage.Proceeds origin.buffers.size t'.activity.storage) {v : Variable}
    (hshares : BinaryNode.Shares origin.buffers.size s.activity t.activity v) :
    v.Agrees s'.activity.storage.world.heap t'.activity.storage.world.heap := by
  obtain ⟨huses, huses', hagrees⟩ := hshares
  exact hagrees.of_alike huses.sound huses'.sound (hproceeds.respects.alike h.steady.pooled huses.toCarries huses.live)
    (hproceeds'.respects.alike h.steady'.pooled huses'.toCarries huses'.live)

/-- A step of a node leaves two runs side by side, working or stopped. -/
theorem Together.receives (h : Together plan limit start start' lent origin slots (⟨source, input, id :: rest⟩ :: rounds) s t)
    (hlater : Later slots ((GraphM.onNode id (GraphNode.process source input)).runFrom s).2) :
    Couples (fun given s' t' => match given with
        | none => Together plan limit start start' lent origin slots (⟨source, input, rest⟩ :: rounds) s' t'
        | some result => Together plan limit start start' lent origin slots
            (⟨some id, some result, plan.dependents id⟩ :: ⟨source, input, rest⟩ :: rounds)
            (s'.noted (.processed id result)) (t'.noted (.processed id result)))
      (fun _ s' t' => Halted plan limit start start' lent origin slots (⟨source, input, rest⟩ :: rounds) s' t') True
      ((GraphM.onNode id (GraphNode.process source input)).runFrom s)
      ((GraphM.onNode id (GraphNode.process source input)).runFrom t) := by
  obtain ⟨pending, hprogress⟩ := h.steady.progress
  obtain ⟨entry, hentry, -⟩ := hprogress.accepts
  have hentry' : t.graph.entries[id.index]? = some entry := by rw [h.graph_eq, hentry]
  refine ((h.process_couples hlater).and_ends
    ((h.steady.receives.and (h.steady.steps hentry)).and (same_process h.steady.start_le id source input))
    ((h.steady'.receives.and (h.steady'.steps hentry')).and (same_process h.steady'.start_le id source input))).mono ?_ ?_
  · rintro given s' t' ⟨hmakes, ⟨⟨hsteady, hsteps⟩, hsame⟩, ⟨hsteady', hsteps'⟩, hsame'⟩
    have hproceeds := hsteps.proceeds h.steady.pooled
    have hproceeds' := hsteps'.proceeds h.steady'.pooled
    have hfired : t'.activity.firedSince start' = s'.activity.firedSince start := by
      rw [hsame.fired, hsame'.fired, h.fired_eq]
    have hwaits (v : Variable) (hmem : v ∈ plan.waiting (s'.activity.firedSince start)) :
        v.Agrees s'.activity.storage.world.heap t'.activity.storage.world.heap :=
      h.agrees_of_proceeds hproceeds hproceeds' (h.shares_waiting (hsame.fired ▸ hmem))
    have hagrees (v : Variable) (hmem : v ∈ s'.inUse (⟨source, input, rest⟩ :: rounds)) :
        v.Agrees s'.activity.storage.world.heap t'.activity.storage.world.heap := by
      rcases hsteps.mem_inUse hentry rfl hmem with hmem | ⟨-, hheld⟩
      · exact h.agrees_of_proceeds hproceeds hproceeds' (h.shares hmem)
      · exact hmakes.agrees v (.inr hheld)
    cases given with
    | none => exact ⟨⟨hmakes.toBeside, hagrees⟩, hsteady, hsteady', hfired, hwaits⟩
    | some result =>
      have hnoted := firedSince_noted (Nat.le_trans h.steady.start_le hsame.size_le) (.processed id result)
      have hnoted' := firedSince_noted (Nat.le_trans h.steady'.start_le hsame'.size_le) (.processed id result)
      refine ⟨⟨⟨hmakes.graph_eq, hmakes.trails⟩, fun v hmem => ?_⟩, hsteady, hsteady', ?_, fun v hmem => ?_⟩
      · rcases List.mem_cons.mp hmem with rfl | hmem
        · exact hmakes.agrees v (.inl rfl)
        · exact hagrees v hmem
      · rw [hnoted, hnoted', hfired]
      · rw [hnoted] at hmem
        exact hwaits v (plan.waiting_subset (List.subset_append_left _ _) hmem)
  · rintro cause s' t' ⟨hbeside, ⟨⟨hstopped, -⟩, -⟩, ⟨hstopped', -⟩, -⟩
    exact ⟨hbeside, hstopped, hstopped'⟩

/-- A result is settled the same way on both sides: both keep it, or both give
    its slot back. -/
theorem Beside.settle_couples (h : Beside slots s t) {entry : GraphEntry Node}
    (hentry : s.graph.entries[id.index]? = some entry)
    (hlt : ∀ slot, result.slot = some slot → slot.index < s.activity.storage.allocator.totalSlots) (retention : Retention) :
    Couples (fun _ s' t' => Beside slots s' t') (fun _ s' t' => Beside slots s' t') False
      ((GraphM.settleResult id retention result).runFrom s) ((GraphM.settleResult id retention result).runFrom t) := by
  cases retention with
  | output =>
    rw [GraphM.runFrom_settle_output, GraphM.runFrom_settle_output]
    exact .of_ok ⟨congrArg (Graph.keep · id result) h.graph_eq, h.trails⟩
  | free =>
    have hentry' : t.graph.entries[id.index]? = some entry := by rw [h.graph_eq, hentry]
    have hfree := ActivityM.free_couples h.trails hlt
    rw [GraphM.runFrom_settle_free result hentry, GraphM.runFrom_settle_free result hentry']
    refine hfree.elim (fun _ activity activity' hfreed => ?_) (fun cause activity activity' hkept => ?_) fun _ _ _ => False.elim
    · exact .of_ok ⟨h.graph_eq, hfreed.1⟩
    · exact .of_error ⟨h.graph_eq, hkept.1⟩

/-- A slot in use is one of the slots there are. It may be in use by an output
    as well. -/
theorem Accounts.lt_totalSlots (h : Accounts lent rounds s) {v : Variable} (hmem : v ∈ s.inUse rounds) {slot : SlotId}
    (hslot : v.slot = some slot) : slot.index < s.activity.storage.allocator.totalSlots := by
  obtain ⟨found, hfound, -⟩ := SlotAllocator.isLive_eq_true.mp (h.live hmem hslot)
  exact (Array.getElem?_eq_some_iff.mp hfound).1

/-- Two runs that are side by side stay so while a result is settled: both
    retain it or both give its storage back, and both hand it to the same
    dependents. -/
theorem Together.settles (h : Together plan limit start start' lent origin slots (⟨some id, some result, []⟩ :: rounds) s t)
    {dependents : List NodeId} {retention : Retention} (hwiring : plan.wiring id = some (dependents, retention)) :
    Couples (fun _ s' t' => Together plan limit start start' lent origin slots rounds s' t')
      (fun _ s' t' => Halted plan limit start start' lent origin slots rounds s' t') True
      ((GraphM.settleResult id retention result).runFrom s) ((GraphM.settleResult id retention result).runFrom t) := by
  obtain ⟨entry, hentry⟩ := Graph.exists_entry_of_wiring (h.steady.idle_eq ▸ hwiring)
  have hcouples := h.settle_couples hentry (fun _ => h.steady.accounts.lt_totalSlots List.mem_cons_self) retention
  obtain ⟨s', hrun, hsteady, hrelabels, hfired, hgraph⟩ := h.steady.settles hwiring
  obtain ⟨t', hrun', hsteady', hrelabels', hfired', -⟩ := h.steady'.settles hwiring
  rw [hrun, hrun'] at hcouples ⊢
  refine .of_ok ⟨⟨hcouples.ok () rfl, fun v hmem => ?_⟩, hsteady, hsteady', ?_, fun v hmem => ?_⟩
  · rw [hrelabels.world_eq, hrelabels'.world_eq]
    exact h.agrees v (mem_inUse_of_settle hgraph hmem)
  · rw [hfired, hfired', h.fired_eq]
  · rw [hrelabels.world_eq, hrelabels'.world_eq]
    exact h.waits v (hfired ▸ hmem)

/-- The same for two runs that have come to a stop. What they still have in
    flight is settled alike. -/
theorem Halted.settles (h : Halted plan limit start start' lent origin slots (⟨some id, some result, rest⟩ :: rounds) s t)
    {dependents : List NodeId} {retention : Retention} (hwiring : plan.wiring id = some (dependents, retention)) :
    Couples (fun _ s' t' => Halted plan limit start start' lent origin slots rounds s' t')
      (fun _ s' t' => Halted plan limit start start' lent origin slots rounds s' t') True
      ((GraphM.settleResult id retention result).runFrom s) ((GraphM.settleResult id retention result).runFrom t) := by
  obtain ⟨entry, hentry⟩ := Graph.exists_entry_of_wiring (h.stopped.idle_eq ▸ hwiring)
  have hcouples := h.settle_couples hentry (fun _ => h.stopped.accounts.lt_totalSlots List.mem_cons_self) retention
  obtain ⟨s', hrun, hstopped, -⟩ := h.stopped.settles hwiring
  obtain ⟨t', hrun', hstopped', -⟩ := h.stopped'.settles hwiring
  rw [hrun, hrun'] at hcouples ⊢
  exact .of_ok ⟨hcouples.ok () rfl, hstopped, hstopped'⟩

/-- Storage stays regular, and its slots what they are. More slots may come
    up. -/
def Extends (before after : GraphState Node σ) : Prop := before.activity.Extends after.activity

instance : IsPreorder (GraphState Node σ) Extends where
  refl state := refl_of Activity.Extends state.activity
  trans _ _ _ h h' := trans_of Activity.Extends h h'

theorem Later.of_extends (hextends : s.Extends s') (h : Later slots s') : Later slots s := Storage.Later.of_extends h hextends

/-- The processing of a node keeps storage regular, and the slots there are stay
    what they are. -/
theorem extends_process (id : NodeId) (source : Option NodeId) (input : Option Variable) :
    Moves Extends (GraphM.onNode id (GraphNode.process source input) : GraphM Node σ (Option Variable)) := by
  refine GraphM.moves_process (fun operand => ?_) (fun op side held operand => ?_) id source input
  · rw [BinaryNode.hold_eq]
    exact BinaryNode.moves_fresh ActivityM.extends_allocate ActivityM.extends_free operand fun _ =>
      ActivityM.extends_onWorld (Context.follows_stays.copyInto _ _)
  · exact BinaryNode.moves_combine ActivityM.extends_allocate ActivityM.extends_free op side held operand
      (BinaryNode.extends_fill op)

theorem extends_note (event : Event) : Moves Extends (GraphM.onActivity (.note event) : GraphM Node σ Unit) :=
  fun state => refl_of Storage.Extends state.activity.storage

/-- The settling of a result does so too. It can only take a slot back. -/
theorem extends_settle (id : NodeId) (retention : Retention) (result : Variable) :
    Moves Extends (GraphM.settleResult id retention result : GraphM Node σ Unit) := by
  intro state
  have hself : state.Extends state := refl_of Extends state
  cases retention with
  | output => exact hself
  | free =>
    cases hentry : state.graph.entries[id.index]? with
    | none =>
      rw [GraphM.settleResult, Stateful.runFrom_bind, GraphM.runFrom_onNode_of_none _ hentry]
      exact hself
    | some entry =>
      have hfree := ActivityM.extends_free result state.activity
      rw [GraphM.runFrom_settle_free result hentry]
      rcases hrun : (ActivityM.free result).runFrom state.activity with ⟨failure | ⟨⟩, activity⟩
      · rwa [hrun] at hfree
      · rw [hrun] at hfree
        exact hfree

/-- So it does in a whole run. -/
theorem extends_run : Moves Extends (GraphM.run : GraphM Node σ (List (NodeId × Variable))) := by
  have hprocess (leaf : NodeId) : Moves Extends (GraphM.process leaf none none : GraphM Node σ Unit) :=
    .bind (.of_eq fun _ => rfl) fun _ => GraphM.moves_processWithin extends_process extends_note extends_settle _ leaf none none
  refine .bind (.of_eq fun _ => rfl) fun state => .bind (GraphM.moves_notifyAll hprocess _) fun _ => ?_
  exact .bind (.of_eq fun _ => rfl) fun _ => .bind (fun state => refl_of Storage.Extends state.activity.storage) fun _ => .pure _

/-- Whatever is true of one step of two runs side by side is true of whole
    runs. -/
theorem together_lockstep : GraphM.Lockstep plan.wiring limit
    (fun rounds (s t : GraphState Node σ) => Together plan limit start start' lent origin slots rounds s t)
    (fun _ rounds s t => Halted plan limit start start' lent origin slots rounds s t) True (Later slots) where
  wired h := by
    rw [← h.steady.idle_eq, Graph.wiring_idle, h.graph_eq]
    exact ⟨rfl, rfl⟩
  limited h := ⟨h.steady.limit_eq, h.steady'.limit_eq⟩
  bounded _ _ := trivial
  receives h hlater := by
    rw [← Graph.dependents_eq]
    exact h.receives hlater
  settles h hwiring _ := h.settles hwiring
  settles_failing h hwiring _ := h.settles hwiring
  failing_skip _ h := ⟨h.toBeside, h.stopped.skip, h.stopped'.skip⟩
  later_node id source input state hlater := hlater.of_extends (extends_process id source input state)
  later_note event state hlater := hlater.of_extends (extends_note event state)
  later_settle id retention result state hlater := hlater.of_extends (extends_settle id retention result state)

end GraphState

end StagedArrays
