import StagedArrays.Proofs.Graph.Faithful

namespace StagedArrays

open Stateful (Ends)

/-- A node has one value at most. By induction on how it is evaluated. -/
theorem Graph.Evaluates.unique {heap : Heap} {graph : Graph Node} {id : NodeId} {tensor tensor' : Tensor}
    (h : graph.Evaluates heap id tensor) (h' : graph.Evaluates heap id tensor') : tensor' = tensor := by
  induction h generalizing tensor' with
  | literal hentry hnode hholds => exact hholds.unique ((evaluates_literal_iff hentry hnode).mp h')
  | binary hentry hnode _ _ htensor ihlhs ihrhs =>
    obtain ⟨lhs, rhs, hlhs, hrhs, htensor'⟩ := (evaluates_binary_iff hentry hnode).mp h'
    rw [ihlhs hlhs, ihrhs hrhs, htensor] at htensor'
    exact (Option.some.inj htensor').symm

/-- An allocator without slots has handed none out, and its world is for any
    storage to come. -/
theorem SlotAllocator.lends_nil {allocator : SlotAllocator} (hslots : allocator.slots = #[]) : allocator.Lends [] := by
  refine ⟨List.nodup_nil, fun index => ?_⟩
  rw [SlotAllocator.isLive, hslots]
  simp

/-- An allocator without slots has handed out nothing yet, so that its pool is
    empty and starts where the heap of the caller ends. -/
theorem Storage.pooled_of_fresh {σ : Type} {storage : Storage σ} (hactive : storage.world.contexts.head? = some .compute)
    (hslots : storage.allocator.slots = #[]) : storage.Pooled storage.world.heap.buffers.size where
  active := hactive
  base_le := Nat.le_refl _
  hosted hslot := by simp [hslots] at hslot
  apart hslot := by simp [hslots] at hslot

namespace GraphState

variable {σ : Type} {before state : GraphState Node σ} {limit start : Nat} {origin : Heap} {plan : Graph Node}

theorem sheltered_of_fresh (hactive : before.activity.storage.world.contexts.head? = some .compute)
    (hslots : before.activity.storage.allocator.slots = #[]) : Sheltered before.activity.storage.world.heap before :=
  ⟨Storage.pooled_of_fresh hactive hslots, fun _ _ => rfl⟩

/-- A run begins with no variable that could stand for anything else. Only
    literals have variables then. -/
theorem valued_start (hactive : before.activity.storage.world.contexts.head? = some .compute)
    (hslots : before.activity.storage.allocator.slots = #[]) (hidle : before.graph.idle = before.graph)
    (hliterals : before.graph.Grounded before.activity.storage.world.heap) (hexact : before.graph.Exact)
    (hroom : 2 * before.graph.binaries ≤ before.activity.storage.allocator.maxSlots) :
    Valued before.graph (GraphM.depthLimit before) before.activity.journal.size before.activity.storage.world.heap
      [⟨none, none, before.graph.leaves⟩] before := by
  have hsteady := ((sheltered_of_fresh hactive hslots).ready hliterals (SlotAllocator.lends_nil hslots)).steady hidle hexact
  have hfired := before.activity.firedSince_size
  have houtputs : before.graph.outputs = [] := by rw [← hidle]; rfl
  refine ⟨hsteady, ⟨?_, ?_, ?_⟩, ?_, ?_, hroom⟩
  · intro round hround id v hsource
    rw [List.mem_singleton.mp hround] at hsource
    cases hsource
  · intro id entry node side v hentry hnode hheld
    have hsame := Graph.node_idle_of_idle hidle hentry
    rw [hnode, Node.idle] at hsame
    have hnone : node.held = none := congrArg BinaryNode.held (Node.binary.inj hsame).symm
    cases hnone.symm.trans hheld
  · rw [houtputs]
    exact fun _ hmem => (List.not_mem_nil hmem).elim
  · rw [hfired]
    exact fun _ hmem => (List.not_mem_nil hmem).elim
  · rw [SlotAllocator.totalSlots, hslots]
    exact Nat.zero_le _

/-- Graph, outputs and storage after a run that has evaluated the graph. Every
    node was processed once, and the outputs stand for the values of their
    nodes. -/
structure Evaluated (before : GraphState Node σ) (outputs : List (NodeId × Variable)) (after : GraphState Node σ) : Prop where
  processed : ∀ id, (after.activity.firedSince before.activity.journal.size).count id =
    if id.index < before.graph.size then 1 else 0
  released : ∀ id, (after.activity.releasedSince before.activity.journal.size).count id =
    if (before.graph.wiring id).map Prod.snd = some .free then 1 else 0
  keys : ∀ id, (outputs.map Prod.fst).count id = if (before.graph.wiring id).map Prod.snd = some .output then 1 else 0
  means : ∀ output ∈ outputs, ∀ tensor, before.graph.Evaluates before.activity.storage.world.heap output.1 tensor ↔
    output.2.Holds after.activity.storage.world.heap tensor
  managed : ∀ output ∈ outputs, output.2.slot.isSome = before.graph.isBinary output.1
  lends : after.activity.storage.allocator.Lends (Variable.slotsOf (outputs.map Prod.snd))
  untouched : ∀ ref : HostRef, ref.index < before.activity.storage.world.heap.buffers.size →
    after.activity.storage.world.heap.get ref = before.activity.storage.world.heap.get ref

/-- A run that has come to its end with all values as they should be has
    evaluated the graph. Nothing waits any more, and in an acyclic graph with
    exact counts every node has fired by then. -/
theorem Valued.evaluated (h : Valued plan limit start origin [⟨none, none, []⟩] state) (hacyclic : plan.Acyclic)
    (hexact : plan.Exact) (hplan : plan = before.graph) (hstart : start = before.activity.journal.size)
    (horigin : origin = before.activity.storage.world.heap) : Evaluated before state.graph.outputs state.handOver := by
  subst hplan hstart horigin
  have hsettled : (state.activity.keptSince before.activity.journal.size ++
      state.activity.releasedSince before.activity.journal.size).Nodup := h.perm.nodup_iff.mpr h.nodup
  have hnodup := List.nodup_append.mp hsettled
  have hcount {ids : List NodeId} (hids : ids.Nodup) {p : NodeId → Prop} [DecidablePred p] (hmem : ∀ id, id ∈ ids ↔ p id)
      (id : NodeId) : ids.count id = if p id then 1 else 0 := by
    rw [hids.count]
    simp only [hmem]
  refine ⟨hcount h.nodup (h.mem_fired_iff hacyclic hexact), hcount hnodup.2.1 fun id => ?_, ?_, ?_, ?_, ?_, h.get_eq⟩
  · refine ⟨h.released id, fun hfree => ?_⟩
    rcases h.mem_kept_or_released hacyclic hexact hfree with ⟨hretention, -⟩ | ⟨-, hmem⟩
    · cases hretention
    · exact hmem
  · rw [h.outputs]
    refine hcount (List.nodup_reverse.mpr hnodup.1) fun id => List.mem_reverse.trans ?_
    refine ⟨h.retained id, fun houtput => ?_⟩
    rcases h.mem_kept_or_released hacyclic hexact houtput with ⟨-, hmem⟩ | ⟨hretention, -⟩
    · exact hmem
    · cases hretention
  · exact fun output houtput => (h.kept output houtput).1.means
  · exact fun output houtput => (h.kept output houtput).2
  · have hlends := h.lends_outputs hacyclic hexact
    rwa [List.append_nil] at hlends

end GraphState

namespace GraphM

variable {σ : Type} {before : GraphState Node σ}

/-- A run of a graph succeeds just where each operation has a value, and then
    hands over the values of the nodes that keep theirs, having done every node
    once. -/
theorem run_evaluates (hactive : before.activity.storage.world.contexts.head? = some .compute)
    (hslots : before.activity.storage.allocator.slots = #[])
    (hroom : 2 * before.graph.binaries ≤ before.activity.storage.allocator.maxSlots)
    (hidle : before.graph.idle = before.graph) (hliterals : before.graph.Literals before.activity.storage.world.heap)
    (hexact : before.graph.Exact) (hacyclic : before.graph.Acyclic) :
    ((∃ outputs after, run.runFrom before = (.ok outputs, after)) ↔ ∀ id, before.graph.isBinary id = true →
        ∃ tensor, before.graph.Evaluates before.activity.storage.world.heap id tensor) ∧
      ∀ outputs after, run.runFrom before = (.ok outputs, after) → GraphState.Evaluated before outputs after := by
  have hends := (GraphState.valued_invariant hliterals).run_ends (GraphState.valued_start hactive hslots hidle
    hliterals.toGrounded hexact hroom)
  refine ⟨⟨?_, fun hdefined => ?_⟩, ?_⟩
  · rintro ⟨outputs, after, hrun⟩ id hbinary
    rw [hrun] at hends
    obtain ⟨ran, hran, -, -⟩ := hends.ok outputs rfl
    refine hran.evaluates id ((hran.mem_fired_iff hacyclic hexact id).mpr ?_) hbinary
    obtain ⟨entry, hentry, -⟩ := (Option.any_eq_true ..).mp hbinary
    exact (Array.getElem?_eq_some_iff.mp hentry).1
  · have hundefined : ¬before.graph.Undefined before.activity.storage.world.heap := by
      rintro ⟨id, hbinary, hnone⟩
      obtain ⟨tensor, htensor⟩ := hdefined id hbinary
      exact hnone tensor htensor
    generalize run.runFrom before = ran at hends
    obtain ⟨outcome, after⟩ := ran
    rcases outcome with (cause | fault) | outputs
    · exact absurd (hends.error cause rfl) hundefined
    · exact absurd (hends.fault fault rfl) hundefined
    · exact ⟨outputs, after, rfl⟩
  · intro outputs after hrun
    rw [hrun] at hends
    obtain ⟨ran, hran, rfl, rfl⟩ := hends.ok outputs rfl
    exact hran.evaluated hacyclic hexact rfl rfl rfl

/-- A graph that doubles a vector of 2 ^ 61 elements, all of which are one and
    the same. -/
def doubled : GraphState Node Unit where
  graph :=
    { entries := #[
        { node := .literal (.unmanaged ⟨.i32, ⟨[2 ^ 61], [0]⟩, .host ⟨0⟩ 0⟩), dependents := [⟨1⟩, ⟨1⟩] },
        { node := .binary { op := .add, lhs := ⟨0⟩, rhs := ⟨0⟩ }, retention := .output }] }
  activity :=
    { storage := ⟨{ maxSlots := 2 },
        { heap := ⟨#[⟨.i32, #[.i32 1], by decide⟩]⟩, contexts := [.compute], client := () }⟩ }

/-- The sum has a value, although no allocation can hold it: a literal of
    increment 0 has one element of storage, and the packed sum would have
    `2 ^ 61`. -/
theorem evaluates_doubled : doubled.graph.Evaluates doubled.activity.storage.world.heap ⟨1⟩
    ⟨.i32, [2 ^ 61], List.replicate (2 ^ 61) (.i32 2)⟩ := by
  let v : Variable := .unmanaged ⟨.i32, ⟨[2 ^ 61], [0]⟩, .host ⟨0⟩ 0⟩
  have hsound : v.value.Sound doubled.activity.storage.world.heap := ⟨rfl, rfl⟩
  have hpeek := Value.peek_of_repeats hsound rfl rfl (Word.signed_iff.mpr (by decide)) (x := .i32 1) rfl
  have helements : v.elements doubled.activity.storage.world.heap = .ok (List.replicate (2 ^ 61) (.i32 1)) := by
    refine (mapM_eq_replicate hpeek).trans ?_
    rw [Layout.length_rowMajor, List.prod_singleton]
  have hv : doubled.graph.Evaluates doubled.activity.storage.world.heap ⟨0⟩
      ⟨.i32, [2 ^ 61], List.replicate (2 ^ 61) (.i32 1)⟩ := .literal rfl rfl ⟨rfl, rfl, helements⟩
  exact .binary rfl rfl hv hv (Tensor.binary_replicate (List.cons_ne_nil _ _) rfl _)

/-- The graph is evaluated and its layouts can be packed, but the run does not
    succeed: there is no room for a copy of the vector. -/
theorem run_faults_doubled : doubled.activity.storage.world.contexts.head? = some .compute ∧
    doubled.activity.storage.allocator.slots = #[] ∧
    2 * doubled.graph.binaries ≤ doubled.activity.storage.allocator.maxSlots ∧ doubled.graph.idle = doubled.graph ∧
    doubled.graph.Grounded doubled.activity.storage.world.heap ∧
    (∀ {index : Nat} {entry value}, doubled.graph.entries[index]? = some entry → entry.node = .literal value →
      value.layout.contiguous = .ok ⟨[2 ^ 61], [1]⟩) ∧
    doubled.graph.Exact ∧ doubled.graph.Acyclic ∧
    (∀ id, doubled.graph.isBinary id = true → ∃ tensor, doubled.graph.Evaluates doubled.activity.storage.world.heap id tensor) ∧
    (run.runFrom doubled).1 = .error (.fault .capacityOverflow) := by
  refine ⟨rfl, rfl, by decide, by simp [doubled, Graph.idle, Node.idle], ?_, ?_, ?_, ?_, ?_, by decide +kernel⟩
  · refine ⟨?_, ?_, ?_⟩
    · intro index entry value hentry hnode
      rcases index with _ | _ | index <;> cases hentry <;> cases hnode
      rfl
    · intro index entry value hentry hnode
      rcases index with _ | _ | index <;> cases hentry <;> cases hnode
      exact ⟨rfl, rfl⟩
    · intro index entry value ref offset hentry hnode hdata
      rcases index with _ | _ | index <;> cases hentry <;> cases hnode
      cases hdata
      exact Nat.zero_lt_one
  · intro index entry value hentry hnode
    rcases index with _ | _ | index <;> cases hentry <;> cases hnode
    rfl
  · rintro ⟨producer⟩ ⟨consumer⟩
    rcases producer with _ | _ | producer <;> rcases consumer with _ | _ | consumer <;>
      simp [Graph.dependents, Graph.operands, doubled, Node.operands]
  · refine ⟨fun id => if id = ⟨1⟩ then 1 else 0, ?_⟩
    rintro ⟨producer⟩ consumer hmem
    rcases producer with _ | _ | producer <;> simp_all [Graph.dependents, doubled]
  · rintro ⟨_ | _ | index⟩ hbinary
    · cases hbinary
    · exact ⟨_, evaluates_doubled⟩
    · cases hbinary

/-- A graph that takes 3 from each of two elements, and is told of the 3
    first. -/
def difference (maxSlots : Nat) : GraphState Node Unit where
  graph :=
    { entries := #[
        { node := .literal (.unmanaged (.constant (.i32 3))), dependents := [⟨1⟩] },
        { node := .binary { op := .sub, lhs := ⟨2⟩, rhs := ⟨0⟩ }, retention := .output },
        { node := .literal (.unmanaged ⟨.i32, ⟨[2], [1]⟩, .host ⟨0⟩ 0⟩), dependents := [⟨1⟩] }] }
  activity :=
    { storage := ⟨{ maxSlots },
        { heap := ⟨#[⟨.i32, #[.i32 5, .i32 7], by decide⟩]⟩, contexts := [.compute], client := () }⟩ }

/-- The literals of the example are values of the caller, stored before the
    run. -/
theorem literals_difference (maxSlots : Nat) :
    (difference maxSlots).graph.Literals (difference maxSlots).activity.storage.world.heap where
  unmanaged index entry value hentry hnode := by
    rcases index with _ | _ | _ | index <;> cases hentry <;> cases hnode <;> rfl
  sound {index entry value} hentry hnode := by
    rcases index with _ | _ | _ | index <;> cases hentry <;> cases hnode
    · exact ⟨rfl, rfl⟩
    · exact ⟨rfl, rfl⟩
  lt_size {index entry value ref offset} hentry hnode hdata := by
    rcases index with _ | _ | _ | index <;> cases hentry <;> cases hnode <;> cases hdata
    exact Nat.zero_lt_one
  plain {index entry value} hentry hnode := by
    rcases index with _ | _ | _ | index <;> cases hentry <;> cases hnode
    · exact ⟨.inl ⟨_, rfl⟩, _, rfl⟩
    · exact ⟨.inr ⟨_, _, rfl⟩, _, rfl⟩

/-- The edges of the example are exact. Its operation is told once of each of
    its operands. -/
theorem exact_difference (maxSlots : Nat) : (difference maxSlots).graph.Exact := by
  rintro ⟨producer⟩ ⟨consumer⟩
  rcases producer with _ | _ | _ | producer <;> rcases consumer with _ | _ | _ | consumer <;>
    simp [Graph.dependents, Graph.operands, difference, Node.operands]

/-- The example has no cycles. Its literals depend on nothing, and the operation
    on them. -/
theorem acyclic_difference (maxSlots : Nat) : (difference maxSlots).graph.Acyclic := by
  refine ⟨fun id => if id = ⟨1⟩ then 1 else 0, ?_⟩
  rintro ⟨producer⟩ consumer hmem
  rcases producer with _ | _ | _ | producer <;> simp_all [Graph.dependents, difference]

/-- The difference is what the graph stands for, and two slots are enough for
    it. -/
theorem run_evaluates_difference : ∃ outputs after, run.runFrom (difference 2) = (.ok outputs, after) ∧
    GraphState.Evaluated (difference 2) outputs after ∧
    (difference 2).graph.Evaluates (difference 2).activity.storage.world.heap ⟨1⟩ ⟨.i32, [2], [.i32 2, .i32 4]⟩ := by
  have hroom : 2 * (difference 2).graph.binaries ≤ (difference 2).activity.storage.allocator.maxSlots := by decide
  have hidle : (difference 2).graph.idle = (difference 2).graph := by simp [difference, Graph.idle, Node.idle]
  have hthree : (difference 2).graph.Evaluates (difference 2).activity.storage.world.heap ⟨0⟩ ⟨.i32, [], [.i32 3]⟩ :=
    .literal rfl rfl ⟨rfl, rfl, rfl⟩
  have helements : (difference 2).graph.Evaluates (difference 2).activity.storage.world.heap ⟨2⟩
      ⟨.i32, [2], [.i32 5, .i32 7]⟩ := .literal rfl rfl ⟨rfl, rfl, rfl⟩
  have hvalue : (difference 2).graph.Evaluates (difference 2).activity.storage.world.heap ⟨1⟩
      ⟨.i32, [2], [.i32 2, .i32 4]⟩ := .binary rfl rfl helements hthree rfl
  have hall := run_evaluates rfl rfl hroom hidle (literals_difference 2) (exact_difference 2) (acyclic_difference 2)
  obtain ⟨outputs, after, hrun⟩ := hall.1.mpr fun id hbinary => by
    rcases id with ⟨_ | _ | _ | index⟩
    · cases hbinary
    · exact ⟨_, hvalue⟩
    · cases hbinary
    · cases hbinary
  exact ⟨outputs, after, hrun, hall.2 outputs after hrun, hvalue⟩

end GraphM

end StagedArrays
