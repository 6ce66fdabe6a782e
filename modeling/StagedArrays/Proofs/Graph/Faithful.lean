import StagedArrays.Proofs.Graph.Cost
import StagedArrays.Proofs.Graph.Evaluation
import StagedArrays.Proofs.Graph.Steady

namespace StagedArrays

open Stateful (Ends)

namespace Graph

/-- The literals are immediates and buffers of the host, each of which has room
    when it is packed. -/
structure Literals (origin : Heap) (graph : Graph Node) : Prop extends graph.Grounded origin where
  plain : ∀ {index : Nat} {entry value}, graph.entries[index]? = some entry → entry.node = .literal value → value.Plain

/-- A variable stands for the value of a node. What the node evaluates to is
    looked up in the heap at the start of the run. -/
structure Stands (plan : Graph Node) (origin heap : Heap) (id : NodeId) (v : Variable) : Prop where
  plain : v.Plain
  means : ∀ tensor, plan.Evaluates origin id tensor ↔ v.Holds heap tensor

variable {plan graph : Graph Node} {origin heap other : Heap} {id : NodeId} {entry : GraphEntry Node} {value v : Variable}
  {tensor : Tensor} {node : BinaryNode}

/-- A literal evaluates to what its variable held at the start, and to nothing
    else. -/
theorem evaluates_literal_iff (hentry : plan.entries[id.index]? = some entry) (hnode : entry.node = .literal value) :
    plan.Evaluates origin id tensor ↔ value.Holds origin tensor := by
  constructor
  · rintro (⟨hfound, hliteral, hholds⟩ | ⟨hfound, hbinary, -⟩)
    · cases hentry.symm.trans hfound
      cases hnode.symm.trans hliteral
      exact hholds
    · cases hentry.symm.trans hfound
      cases hnode.symm.trans hbinary
  · exact .literal hentry hnode

/-- A node with two operands evaluates to the combination of what they evaluate
    to. -/
theorem evaluates_binary_iff (hentry : plan.entries[id.index]? = some entry) (hnode : entry.node = .binary node) :
    plan.Evaluates origin id tensor ↔ ∃ lhs rhs, plan.Evaluates origin node.lhs lhs ∧ plan.Evaluates origin node.rhs rhs ∧
      lhs.binary node.op rhs = some tensor := by
  constructor
  · rintro (⟨hfound, hliteral, -⟩ | ⟨hfound, hbinary, hlhs, hrhs, htensor⟩)
    · cases hentry.symm.trans hfound
      cases hnode.symm.trans hliteral
    · cases hentry.symm.trans hfound
      cases hnode.symm.trans hbinary
      exact ⟨_, _, hlhs, hrhs, htensor⟩
  · rintro ⟨lhs, rhs, hlhs, hrhs, htensor⟩
    exact .binary hentry hnode hlhs hrhs htensor

/-- A variable keeps standing for the value of its node while its own storage is
    unchanged. -/
theorem Stands.of_alike (h : plan.Stands origin heap id v) (hsound : v.value.Sound heap) (halike : v.value.Alike heap other) :
    plan.Stands origin other id v := by
  refine ⟨h.plain, fun tensor => (h.means tensor).trans ?_⟩
  have helements := Variable.elements_congr hsound halike
  exact ⟨fun hholds => ⟨hholds.dtype_eq, hholds.extents_eq, helements.trans hholds.elements_eq⟩,
    fun hholds => ⟨hholds.dtype_eq, hholds.extents_eq, helements.symm.trans hholds.elements_eq⟩⟩

/-- A copy stands for what it is a copy of. Its layout may differ in the
    increments. -/
theorem Stands.copy (h : plan.Stands origin heap id v) {copy : Variable} {xs : List Numeric} (hplain : copy.Plain)
    (hdtype : copy.dtype = v.dtype) (hextents : copy.layout.extents = v.layout.extents) (hxs : v.elements heap = .ok xs)
    (hcopy : copy.elements other = .ok xs) : plan.Stands origin other id copy := by
  refine ⟨hplain, fun tensor => (h.means tensor).trans ?_⟩
  constructor
  · rintro ⟨hdtype', hextents', helements⟩
    exact ⟨hdtype.trans hdtype', hextents.trans hextents', (hcopy.trans hxs.symm).trans helements⟩
  · rintro ⟨hdtype', hextents', helements⟩
    exact ⟨hdtype.symm.trans hdtype', hextents.symm.trans hextents', (hxs.trans hcopy.symm).trans helements⟩

/-- The result of two operands stands for what their values give. This is the
    step of the evaluation that the node stands for. -/
theorem Stands.product (hentry : plan.entries[id.index]? = some entry) (hnode : entry.node = .binary node) {lhs rhs : Variable}
    (hlhs : plan.Stands origin heap node.lhs lhs) (hrhs : plan.Stands origin heap node.rhs rhs) (hsound : rhs.value.Sound heap)
    {xs : List Numeric} (hxs : BinaryNode.product heap node.op lhs rhs = .ok xs) {result : Variable} (hplain : result.Plain)
    (hdtype : result.dtype = lhs.dtype) (hextents : result.layout.extents = lhs.layout.extents)
    (hresult : result.elements other = .ok xs) :
    plan.Stands origin other id result ∧ ∃ tensor, plan.Evaluates origin id tensor := by
  obtain ⟨a, b, ha, hb, htensor⟩ := Variable.exists_of_product hlhs.plain hrhs.plain hsound hxs
  have hevaluates := (evaluates_binary_iff hentry hnode).mpr ⟨a, b, (hlhs.means a).mpr ha, (hrhs.means b).mpr hb, htensor⟩
  have hholds : result.Holds other ⟨lhs.dtype, lhs.layout.extents, xs⟩ := ⟨hdtype, hextents, hresult⟩
  refine ⟨⟨hplain, fun tensor => ⟨fun htensor' => ?_, fun hholds' => ?_⟩⟩, _, hevaluates⟩
  · obtain ⟨a', b', ha', hb', hsame⟩ := (evaluates_binary_iff hentry hnode).mp htensor'
    rw [ha.unique ((hlhs.means a').mp ha'), hb.unique ((hrhs.means b').mp hb')] at hsame
    cases htensor.symm.trans hsame
    exact hholds
  · rw [hholds.unique hholds']
    exact hevaluates

/-- Where operands do not fit together, or have no elements, there is no
    result. -/
theorem not_evaluates_of_product (hentry : plan.entries[id.index]? = some entry) (hnode : entry.node = .binary node)
    {lhs rhs : Variable} (hlhs : plan.Stands origin heap node.lhs lhs) (hrhs : plan.Stands origin heap node.rhs rhs)
    (hsound : rhs.value.Sound heap) (hnone : ∀ xs, BinaryNode.product heap node.op lhs rhs ≠ .ok xs) (tensor : Tensor) :
    ¬plan.Evaluates origin id tensor := by
  intro htensor
  obtain ⟨a, b, ha, hb, hsame⟩ := (evaluates_binary_iff hentry hnode).mp htensor
  exact hnone _ (Variable.product_of_binary hsound ((hlhs.means a).mp ha) ((hrhs.means b).mp hb) hsame)

/-- If an operand stands for its value and cannot be read, then the node has no
    value. Only an operand without a value is unreadable here. -/
theorem not_evaluates_of_elements (hentry : plan.entries[id.index]? = some entry) (hnode : entry.node = .binary node)
    {side : Side} (hv : plan.Stands origin heap (node.operand side) v) (hnone : ∀ xs, v.elements heap ≠ .ok xs)
    (tensor : Tensor) : ¬plan.Evaluates origin id tensor := by
  intro htensor
  obtain ⟨a, b, ha, hb, -⟩ := (evaluates_binary_iff hentry hnode).mp htensor
  cases side with
  | lhs => exact hnone _ ((hv.means a).mp ha).elements_eq
  | rhs => exact hnone _ ((hv.means b).mp hb).elements_eq

/-- Some operation has no value. It is such an operation that a run with an
    error comes upon. -/
def Undefined (plan : Graph Node) (origin : Heap) : Prop :=
  ∃ id, plan.isBinary id = true ∧ ∀ tensor, ¬plan.Evaluates origin id tensor

end Graph

/-- What a step gives is plain storage, for it takes no more room than what it
    is given like. -/
theorem Storage.Gives.plain {σ : Type} {base : Nat} {before after : Storage σ} {like v : Variable} {xs : List Numeric}
    (h : before.Gives base like v xs after) (hlike : like.Plain) : v.Plain := by
  obtain ⟨size, hpacks⟩ := h.packs
  obtain ⟨id, hid⟩ := Option.isSome_iff_exists.mp h.managed
  obtain ⟨slot, ref, -, -, hdata⟩ := h.carries.managed id hid
  obtain ⟨packed, hpacked⟩ := hlike.packed
  have hroom := (Layout.packedFor_eq_ok_iff.mp hpacked).2
  refine ⟨.inr ⟨ref, 0, hdata⟩, v.layout, Layout.packedFor_eq_ok_iff.mpr ⟨hpacks.contiguous_eq, ?_⟩⟩
  rw [h.dtype_eq, h.extents_eq]
  exact hroom

namespace GraphState

variable {σ : Type} {state after : GraphState Node σ} {plan : Graph Node} {limit start base : Nat} {origin : Heap}
  {rounds others : List Round} {id : NodeId} {source : Option NodeId} {input : Option Variable} {rest rest' : List NodeId}
  {result : Variable}

/-- Every variable of a graph at work stands for the value of the node it comes
    from. -/
structure Faithful (plan : Graph Node) (origin : Heap) (rounds : List Round) (state : GraphState Node σ) : Prop where
  flying : ∀ round ∈ rounds, ∀ id v, round.source = some id → round.input = some v →
    plan.Stands origin state.activity.storage.world.heap id v ∧ v.slot.isSome = plan.isBinary id
  held : ∀ {id : NodeId} {entry : GraphEntry Node} {node : BinaryNode} {side : Side} {v : Variable},
    state.graph.entries[id.index]? = some entry → entry.node = .binary node → node.held = some (side, v) →
    plan.Stands origin state.activity.storage.world.heap (node.operand side) v
  kept : ∀ output ∈ state.graph.outputs, plan.Stands origin state.activity.storage.world.heap output.1 output.2 ∧
    output.2.slot.isSome = plan.isBinary output.1

/-- A run whose variables stand for what they should, and which has asked for no
    more slots than it may. -/
structure Valued (plan : Graph Node) (limit start : Nat) (origin : Heap) (rounds : List Round) (state : GraphState Node σ) :
    Prop extends Steady plan limit start [] origin rounds state, Faithful plan origin rounds state where
  evaluates : ∀ id ∈ state.activity.firedSince start, plan.isBinary id = true → ∃ tensor, plan.Evaluates origin id tensor
  totalSlots_le : state.activity.storage.allocator.totalSlots ≤
    ∑ index ∈ Finset.range plan.size, state.graph.cost (state.activity.firedSince start) index
  room : 2 * plan.binaries ≤ state.activity.storage.allocator.maxSlots

/-- Nothing in use changes its meaning in a step. The step may take fresh
    storage and fill it. -/
theorem Faithful.proceeds (h : Faithful plan origin rounds state) (hsteady : Steady plan limit start [] origin rounds state)
    (hproceeds : state.activity.storage.Proceeds origin.buffers.size after.activity.storage)
    (hgraph : after.graph = state.graph) : Faithful plan origin rounds after := by
  have hstands {id : NodeId} {v : Variable} (hmem : v ∈ state.inUse rounds)
      (hv : plan.Stands origin state.activity.storage.world.heap id v) :
      plan.Stands origin after.activity.storage.world.heap id v := by
    have huses := hsteady.uses hmem
    exact hv.of_alike huses.sound (hproceeds.respects.alike hsteady.pooled huses.toCarries huses.live)
  refine ⟨fun round hround id v hsource hinput => ?_, fun {id entry node side v} hentry hnode hheld => ?_, fun output houtput => ?_⟩
  · obtain ⟨hv, hslot⟩ := h.flying round hround id v hsource hinput
    refine ⟨hstands (List.mem_append_left _ (List.mem_append_left _ ?_)) hv, hslot⟩
    exact List.mem_filterMap.mpr ⟨round, hround, hinput⟩
  · rw [hgraph] at hentry
    refine hstands ?_ (h.held hentry hnode hheld)
    exact mem_inUse_of_held hentry (by rw [hnode, Node.held?, hheld, Option.map_some]) rounds
  · rw [hgraph] at houtput
    obtain ⟨hv, hslot⟩ := h.kept output houtput
    exact ⟨hstands (List.mem_append_right _ (List.mem_map_of_mem houtput)) hv, hslot⟩

variable {graph : Graph Node} {activity : Activity σ} {entry : GraphEntry Node}

/-- A round that has nothing left to deliver can be left out. Its value has been
    taken by all that it is for. -/
theorem Faithful.skip (h : Faithful plan origin (⟨source, input, rest⟩ :: rounds) state) :
    Faithful plan origin (⟨source, input, rest'⟩ :: rounds) state := by
  refine ⟨fun round hround id v hsource hinput => ?_, h.held, h.kept⟩
  rcases List.mem_cons.mp hround with rfl | hround
  · exact h.flying ⟨source, input, rest⟩ List.mem_cons_self id v hsource hinput
  · exact h.flying round (List.mem_cons_of_mem _ hround) id v hsource hinput

/-- One more result is on its way. It stands for the value of the node that it
    comes from. -/
theorem Faithful.fly (h : Faithful plan origin rounds state)
    (hresult : plan.Stands origin state.activity.storage.world.heap id result ∧ result.slot.isSome = plan.isBinary id) :
    Faithful plan origin (⟨some id, some result, rest⟩ :: rounds) state := by
  refine ⟨fun round hround other v hsource hinput => ?_, h.held, h.kept⟩
  rcases List.mem_cons.mp hround with rfl | hround
  · cases hsource
    cases hinput
    exact hresult
  · exact h.flying round hround other v hsource hinput

/-- A node holds an operand, or holds none any more. What it holds stands for
    the value of the producer. -/
theorem Faithful.setNode (h : Faithful plan origin rounds (⟨graph, activity⟩ : GraphState Node σ))
    (hentry : graph.entries[id.index]? = some entry) {found : BinaryNode}
    (hheld : ∀ side v, found.held = some (side, v) →
      plan.Stands origin activity.storage.world.heap (found.operand side) v) :
    Faithful plan origin rounds (⟨graph.setNode id (.binary found), activity⟩ : GraphState Node σ) := by
  refine ⟨h.flying, fun {other entry' node side v} hentry' hnode hside => ?_, h.kept⟩
  rcases Graph.getElem?_setNode_cases hentry hentry' with ⟨-, rfl⟩ | ⟨-, hsame⟩
  · cases hnode
    exact hheld side v hside
  · exact h.held hsame hnode hside

/-- A result that was on its way is kept, or given up. If it is kept it is an
    output that stands for the value of its node. -/
theorem Faithful.settle (h : Faithful plan origin (⟨some id, some result, rest⟩ :: rounds) state)
    (hrelabels : state.activity.storage.Relabels after.activity.storage) {retention : Retention}
    (hgraph : after.graph = state.graph.settled id result retention) : Faithful plan origin rounds after := by
  have hentries : after.graph.entries = state.graph.entries := by
    rw [hgraph]
    cases retention <;> rfl
  refine ⟨fun round hround => ?_, fun {other entry node side v} hentry => ?_, fun output houtput => ?_⟩
  · rw [hrelabels.world_eq]
    exact h.flying round (List.mem_cons_of_mem _ hround)
  · rw [hrelabels.world_eq]
    rw [hentries] at hentry
    exact h.held hentry
  · rw [hrelabels.world_eq]
    rw [hgraph] at houtput
    cases retention with
    | free => exact h.kept output houtput
    | output =>
      rcases List.mem_cons.mp houtput with rfl | houtput
      · exact h.flying _ List.mem_cons_self id result rfl rfl
      · exact h.kept output (List.mem_filter.mp houtput).1

/-- The operands of a node, from left to right, stand for the values of its
    producers. -/
theorem Valued.arranged (h : Valued plan limit start origin (⟨source, input, id :: rest⟩ :: rounds) state)
    (hentry : state.graph.entries[id.index]? = some entry) {found : BinaryNode} {side : Side} {held operand lhs rhs : Variable}
    (hnode : entry.node = .binary found) (hheld : found.held = some (side.other, held))
    (hsource : source = some (found.operand side)) (hinput : input = some operand)
    (harranged : BinaryNode.arranged side held operand = (lhs, rhs)) :
    let heap := state.activity.storage.world.heap
    (plan.Stands origin heap found.lhs lhs ∧ lhs.value.Sound heap) ∧ plan.Stands origin heap found.rhs rhs ∧ rhs.value.Sound heap := by
  have hmem : held ∈ state.inUse (⟨source, input, id :: rest⟩ :: rounds) :=
    mem_inUse_of_held hentry (by rw [hnode, Node.held?, hheld, Option.map_some]) _
  have hmem' : operand ∈ state.inUse (⟨source, input, id :: rest⟩ :: rounds) :=
    List.mem_append_left _ (List.mem_append_left _ (hinput ▸ List.mem_cons_self))
  exact BinaryNode.of_arranged (fun side v => plan.Stands origin state.activity.storage.world.heap (found.operand side) v ∧
      v.value.Sound state.activity.storage.world.heap) harranged
    ⟨h.held hentry hnode hheld, (h.carries held hmem).sound⟩
    ⟨(h.flying _ List.mem_cons_self _ operand hsource hinput).1, (h.carries operand hmem').sound⟩

/-- Where a node lacks something, some operation has no value. In a valued run
    it is not for want of slots or of room. -/
theorem Valued.undefined_of_lacks (h : Valued plan limit start origin (⟨source, input, id :: rest⟩ :: rounds) state)
    (hentry : state.graph.entries[id.index]? = some entry) (hlacks : Lacks state entry.node source input) :
    plan.Undefined origin := by
  have hplanned := Graph.exists_plan_entry h.idle_eq hentry
  cases hlacks with
  | hold found side operand hnode hheld hsource hinput hnone =>
    have hplan : (entry.node.idle : Node) = .binary { found with held := none } := by rw [hnode]; rfl
    have hoperand := (h.flying _ List.mem_cons_self _ operand hsource hinput).1
    refine ⟨id, by rw [Graph.isBinary_of_entry hplanned, hplan]; rfl, ?_⟩
    have hnone' := hnone.resolve_left fun ⟨fault, hfault⟩ => by
      obtain ⟨layout, hlayout⟩ := hoperand.plain.packed
      cases hfault.symm.trans hlayout
    exact Graph.not_evaluates_of_elements hplanned hplan hoperand hnone'
  | combine found side held operand lhs rhs hnode hheld hsource hinput harranged hnone =>
    have hplan : (entry.node.idle : Node) = .binary { found with held := none } := by rw [hnode]; rfl
    have hstands := h.arranged hentry hnode hheld hsource hinput harranged
    refine ⟨id, by rw [Graph.isBinary_of_entry hplanned, hplan]; rfl, ?_⟩
    have hnone' := hnone.resolve_left fun ⟨fault, hfault⟩ => by
      obtain ⟨layout, hlayout⟩ := hstands.1.1.plain.packed
      cases hfault.symm.trans hlayout
    exact Graph.not_evaluates_of_product hplanned hplan hstands.1.1 hstands.2.1 hstands.2.2 hnone'

/-- A literal stands for itself. Its elements are in buffers that the run leaves
    alone. -/
theorem Sheltered.stands_literal (h : Sheltered origin state) (hplan : plan.Literals origin) {entry : GraphEntry Node}
    {value : Variable} (hentry : plan.entries[id.index]? = some entry) (hnode : entry.node = .literal value) :
    plan.Stands origin state.activity.storage.world.heap id value ∧ value.slot.isSome = plan.isBinary id := by
  have hself : plan.Stands origin origin id value :=
    ⟨hplan.plain hentry hnode, fun _ => Graph.evaluates_literal_iff hentry hnode⟩
  have halike : value.value.Alike origin state.activity.storage.world.heap :=
    .of_get_eq fun ref offset hdata => h.get_eq ref (hplan.lt_size hentry hnode hdata)
  refine ⟨hself.of_alike (hplan.sound hentry hnode) halike, ?_⟩
  rw [hplan.unmanaged id.index entry value hentry hnode, Graph.isBinary_of_entry hentry, hnode]
  rfl

/-- An event changes nothing else. -/
theorem Faithful.noted (h : Faithful plan origin rounds state) (event : Event) : Faithful plan origin rounds (state.noted event) :=
  ⟨h.flying, h.held, h.kept⟩

/-- A node that has not been done can still ask for a slot. The slots in use are
    those of other nodes, and the graph has one for each. -/
theorem Valued.room_left (h : Valued plan limit start origin rounds state) (hentry : state.graph.entries[id.index]? = some entry)
    {found : BinaryNode} (hnode : entry.node = .binary found) (hnew : id ∉ state.activity.firedSince start) :
    state.activity.storage.allocator.totalSlots < state.activity.storage.allocator.maxSlots := by
  have hcost := Graph.sum_cost_lt_binaries hentry hnode hnew
  have hle := h.totalSlots_le
  have hroom := h.room
  rw [← h.idle_eq, Graph.size_idle] at hle
  rw [← h.idle_eq, Graph.binaries_idle] at hroom
  omega

theorem mem_fired_append (state : GraphState Node σ) (start : Nat) (id other : NodeId) (hne : other ≠ id) :
    other ∈ state.activity.firedSince start ++ [id] ↔ other ∈ state.activity.firedSince start := by
  simp [hne]

section Steps

variable {dependents : List NodeId} {entry : GraphEntry Node}
  (h : Valued plan limit start origin (⟨source, input, id :: rest⟩ :: rounds) state)
  (hentry : state.graph.entries[id.index]? = some entry)
include h hentry

/-- A literal has given its value. It is on its way to the dependents of the
    literal. -/
theorem Valued.give (hplan : plan.Literals origin) {value : Variable} (hnode : entry.node = .literal value)
    (hsteady : Steady plan limit start [] origin (⟨some id, some value, dependents⟩ :: ⟨source, input, rest⟩ :: rounds)
      (state.noted (.processed id value))) :
    Valued plan limit start origin (⟨some id, some value, dependents⟩ :: ⟨source, input, rest⟩ :: rounds)
      (state.noted (.processed id value)) := by
  have hplanned := Graph.exists_plan_entry h.idle_eq hentry
  have hliteral : entry.node.idle = .literal value := by rw [hnode]; rfl
  have hfired : (state.noted (.processed id value)).activity.firedSince start = state.activity.firedSince start ++ [id] :=
    firedSince_noted h.start_le _
  have hskip : Faithful plan origin (⟨source, input, rest⟩ :: rounds) state := h.toFaithful.skip
  refine ⟨hsteady, (hskip.fly (h.toSheltered.stands_literal hplan hplanned hliteral)).noted _, ?_, ?_, h.room⟩
  · rw [hfired]
    intro other hmem hbinary
    rcases List.mem_append.mp hmem with hmem | hmem
    · exact h.evaluates other hmem hbinary
    · rw [List.mem_singleton.mp hmem, Graph.isBinary_of_entry hplanned, hliteral] at hbinary
      cases hbinary
  · rw [hfired]
    refine Nat.le_trans h.totalSlots_le (Finset.sum_le_sum fun index _ => ?_)
    have hle := Graph.cost_le_setNode entry.node hentry (mem_fired_append state start id) (by rw [hnode]; rfl) index
    rwa [Graph.setNode_self hentry] at hle

variable (hnew : id ∉ state.activity.firedSince start)
include hnew

/-- A node has taken its first operand. The copy in its slot stands for the same
    value. -/
theorem Valued.hold {found : BinaryNode} {side : Side} {operand held : Variable} {xs : List Numeric} {activity : Activity σ}
    (hnode : entry.node = .binary found) (hheld : found.held = none) (hsource : source = some (found.operand side))
    (hinput : input = some operand) (hxs : operand.elements state.activity.storage.world.heap = .ok xs)
    (hgives : state.activity.storage.Gives origin.buffers.size operand held xs activity.storage)
    (hfired : activity.firedSince start = state.activity.firedSince start)
    (hsteady : Steady plan limit start [] origin (⟨source, input, rest⟩ :: rounds)
      ⟨state.graph.setNode id (.binary { found with held := some (side, held) }), activity⟩) :
    Valued plan limit start origin (⟨source, input, rest⟩ :: rounds)
      ⟨state.graph.setNode id (.binary { found with held := some (side, held) }), activity⟩ := by
  have hoperand := (h.flying _ List.mem_cons_self _ operand hsource hinput).1
  have hstands : plan.Stands origin activity.storage.world.heap (found.operand side) held :=
    hoperand.copy (hgives.plain hoperand.plain) hgives.dtype_eq hgives.extents_eq hxs hgives.elements_eq
  have hbetween : Faithful plan origin _ (⟨state.graph, activity⟩ : GraphState Node σ) :=
    h.toFaithful.proceeds h.toSteady hgives.toProceeds rfl
  refine ⟨hsteady, hbetween.skip.setNode hentry fun side' v hsame => ?_, ?_, ?_, ?_⟩
  · cases hsame
    exact hstands
  · rw [hfired]
    exact h.evaluates
  · have hsame (other : NodeId) (_ : other ≠ id) :
        other ∈ state.activity.firedSince start ↔ other ∈ state.activity.firedSince start := Iff.rfl
    have hlt := Graph.sum_cost_lt (.binary { found with held := some (side, held) }) hentry hsame
      (by simp [hnode, hheld, hnew, Node.cost])
    have hle := h.totalSlots_le
    have htotal := hgives.totalSlots_le
    rw [← h.idle_eq, Graph.size_idle] at hle ⊢
    rw [hfired]
    dsimp only
    omega
  · rw [hgives.maxSlots_eq]
    exact h.room

/-- A node has computed its result. The operand that it held is given up at the
    same time. -/
theorem Valued.combine {found : BinaryNode} {side : Side} {held operand lhs rhs result : Variable} {xs : List Numeric}
    {activity : Activity σ} (hnode : entry.node = .binary found) (hheld : found.held = some (side.other, held))
    (hsource : source = some (found.operand side)) (hinput : input = some operand)
    (harranged : BinaryNode.arranged side held operand = (lhs, rhs))
    (hxs : BinaryNode.product state.activity.storage.world.heap found.op lhs rhs = .ok xs)
    (hgives : state.activity.storage.Gives origin.buffers.size lhs result xs activity.storage) {after : GraphState Node σ}
    (hafter : after = ⟨state.graph.setNode id (.binary { found with held := none }), activity⟩)
    (hfired : (after.noted (.processed id result)).activity.firedSince start = state.activity.firedSince start ++ [id])
    (hsteady : Steady plan limit start [] origin (⟨some id, some result, dependents⟩ :: ⟨source, input, rest⟩ :: rounds)
      (after.noted (.processed id result))) :
    Valued plan limit start origin (⟨some id, some result, dependents⟩ :: ⟨source, input, rest⟩ :: rounds)
      (after.noted (.processed id result)) := by
  have hplanned := Graph.exists_plan_entry h.idle_eq hentry
  have hbinary : (entry.node.idle : Node) = .binary { found with held := none } := by rw [hnode]; rfl
  obtain ⟨⟨hlhs, -⟩, hrhs, hsound⟩ := h.arranged hentry hnode hheld hsource hinput harranged
  obtain ⟨hresult, hevaluates⟩ := hlhs.product hplanned hbinary hrhs hsound hxs (hgives.plain hlhs.plain) hgives.dtype_eq hgives.extents_eq
    hgives.elements_eq
  have hmanaged : result.slot.isSome = plan.isBinary id := by
    rw [hgives.managed, Graph.isBinary_of_entry hplanned, hbinary]
    rfl
  have hproceeds : Faithful plan origin (⟨source, input, id :: rest⟩ :: rounds) (⟨state.graph, activity⟩ : GraphState Node σ) :=
    h.toFaithful.proceeds h.toSteady hgives.toProceeds rfl
  have hbetween : Faithful plan origin (⟨source, input, rest⟩ :: rounds) (⟨state.graph, activity⟩ : GraphState Node σ) :=
    hproceeds.skip
  subst hafter
  have hdropped : Faithful plan origin (⟨source, input, rest⟩ :: rounds)
      (⟨state.graph.setNode id (.binary { found with held := none }), activity⟩ : GraphState Node σ) :=
    hbetween.setNode hentry fun _ _ hsame => nomatch hsame
  refine ⟨hsteady, (hdropped.fly ⟨hresult, hmanaged⟩).noted _, ?_, ?_, ?_⟩
  · rw [hfired]
    intro other hmem hother
    rcases List.mem_append.mp hmem with hmem | hmem
    · exact h.evaluates other hmem hother
    · rw [List.mem_singleton.mp hmem]
      exact hevaluates
  · have hlt := Graph.sum_cost_lt (.binary { found with held := none }) hentry (mem_fired_append state start id)
      (by simp [hnode, hheld, hnew, Node.cost])
    have hle := h.totalSlots_le
    have htotal := hgives.totalSlots_le
    rw [← h.idle_eq, Graph.size_idle] at hle ⊢
    rw [hfired]
    change activity.storage.allocator.totalSlots ≤ _
    dsimp only [noted]
    omega
  · change 2 * plan.binaries ≤ activity.storage.allocator.maxSlots
    rw [hgives.maxSlots_eq]
    exact h.room

end Steps

/-- A step keeps all values right, and only fails where some operation has no
    value. -/
theorem Valued.receives (h : Valued plan limit start origin (⟨source, input, id :: rest⟩ :: rounds) state)
    (hplan : plan.Literals origin) :
    Ends (fun result after => match result with
        | none => Valued plan limit start origin (⟨source, input, rest⟩ :: rounds) after
        | some result => Valued plan limit start origin
            (⟨some id, some result, plan.dependents id⟩ :: ⟨source, input, rest⟩ :: rounds) (after.noted (.processed id result)))
      (fun _ _ => plan.Undefined origin) (plan.Undefined origin)
      ((GraphM.onNode id (GraphNode.process source input)).runFrom state) := by
  obtain ⟨pending, hprogress⟩ := h.progress
  obtain ⟨entry, hentry, hnew, -⟩ := hprogress.accepts
  have hplanned := Graph.exists_plan_entry h.idle_eq hentry
  have hsteps := h.steps hentry
  have hends := (hsteps.and (h.toSteady.receives)).and (same_process h.start_le id source input)
  refine ⟨fun given hgiven => ?_, fun cause hcause => ?_, fun fault hfault => ?_⟩
  · obtain ⟨⟨hstep, hsteady⟩, hsame⟩ := hends.ok given hgiven
    generalize ((GraphM.onNode id (GraphNode.process source input)).runFrom state).2 = after at hstep hsteady hsame ⊢
    have hfired (result : Variable) : (after.noted (.processed id result)).activity.firedSince start =
        state.activity.firedSince start ++ [id] := by
      rw [firedSince_noted (Nat.le_trans h.start_le hsame.size_le), hsame.fired]
      rfl
    cases hstep with
    | give value hnode hinput => exact h.give hentry hplan hnode hsteady
    | hold found side operand held xs activity hnode hheld hsource hinput hxs hgives =>
      exact h.hold hentry hnew hnode hheld hsource hinput hxs hgives hsame.fired hsteady
    | combine found side held operand lhs rhs result xs activity hnode hheld hsource hinput harranged hxs hgives =>
      exact h.combine hentry hnew hnode hheld hsource hinput harranged hxs hgives rfl (hfired result) hsteady
  · obtain ⟨-, ⟨found, hnode⟩, hfull | hlacks⟩ := hsteps.error cause hcause
    · exact absurd (h.room_left hentry hnode hnew) (Nat.not_lt_of_le hfull)
    · exact h.undefined_of_lacks hentry hlacks
  · exact h.undefined_of_lacks hentry (hsteps.fault fault hfault)

/-- Settling a result keeps all values right. The result has reached all that it
    is for. -/
theorem Valued.settles (h : Valued plan limit start origin (⟨some id, some result, []⟩ :: rounds) state)
    {dependents : List NodeId} {retention : Retention} (hwiring : plan.wiring id = some (dependents, retention)) :
    ∃ after, (GraphM.settleResult id retention result).runFrom state = (.ok (), after) ∧
      Valued plan limit start origin rounds after := by
  obtain ⟨after, hrun, hsteady, hrelabels, hfired, hgraph⟩ := h.toSteady.settles hwiring
  have hentries : after.graph.entries = state.graph.entries := by
    rw [hgraph]
    cases retention <;> rfl
  refine ⟨after, hrun, hsteady, h.toFaithful.settle hrelabels hgraph, ?_, ?_, ?_⟩
  · rw [hfired]
    exact h.evaluates
  · rw [hfired, hrelabels.totalSlots_eq]
    simp only [Graph.cost, hentries]
    exact h.totalSlots_le
  · rw [hrelabels.maxSlots_eq]
    exact h.room

/-- The invariant behind the correctness of a run. Every step keeps all values
    in flight and at rest as they should be, and a step can fail or break off
    only where some operation of the graph has no value. -/
theorem valued_invariant (hplan : plan.Literals origin) :
    GraphM.Invariant plan.wiring limit (fun rounds (state : GraphState Node σ) => Valued plan limit start origin rounds state)
      (fun _ _ _ => plan.Undefined origin) (plan.Undefined origin) where
  wired h := by rw [← h.idle_eq, Graph.wiring_idle]
  limited h := h.limit_eq
  bounded h hlt := absurd h.length_le (Nat.not_le_of_lt hlt)
  receives h := by
    rw [← Graph.dependents_eq]
    exact h.receives hplan
  settles h hwiring := by
    obtain ⟨after, hrun, hafter⟩ := h.settles hwiring
    rw [hrun]
    exact .of_ok hafter
  settles_failing h _ := ⟨fun _ _ => h, fun _ _ => h, fun _ _ => h⟩
  failing_skip _ h := h

end GraphState

end StagedArrays
