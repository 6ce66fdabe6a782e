import Mathlib.Data.List.Nodup
import StagedArrays.Proofs.Graph.Reset

namespace StagedArrays

namespace BinaryNode

/-- The producer of an operand. Both sides may have the same one. -/
def operand (node : BinaryNode) : Side → NodeId
  | .lhs => node.lhs
  | .rhs => node.rhs

/-- The producers of the operands that have yet to come. A producer is listed
    twice if both sides wait for it. -/
def awaits (node : BinaryNode) : List NodeId :=
  match node.held with
  | none => [node.lhs, node.rhs]
  | some (side, _) => [node.operand side.other]

/-- An operand that has yet to come is known for one. -/
theorem exists_sideOf?_eq {node : BinaryNode} {source : NodeId} (h : source ∈ node.awaits) :
    ∃ side, node.sideOf? source = some side ∧ source = node.operand side ∧
      ∀ heldSide held, node.held = some (heldSide, held) → side = heldSide.other := by
  obtain ⟨op, lhs, rhs, _ | ⟨heldSide, held⟩⟩ := node
  · rcases List.mem_pair.mp h with rfl | rfl
    · exact ⟨.lhs, by simp [sideOf?], rfl, fun _ _ heq => nomatch heq⟩
    · by_cases hsame : source = lhs
      · exact ⟨.lhs, by simp [sideOf?, hsame], hsame, fun _ _ heq => nomatch heq⟩
      · exact ⟨.rhs, by simp [sideOf?, hsame], rfl, fun _ _ heq => nomatch heq⟩
  · obtain rfl := List.mem_singleton.mp h
    refine ⟨heldSide.other, ?_, rfl, fun _ _ heq => by cases heq; rfl⟩
    cases heldSide with
    | lhs => simp [sideOf?, operand, Side.other]
    | rhs => simp [sideOf?, operand, Side.other]

end BinaryNode

namespace Node

/-- The producers of the operands of a node. -/
def operands : Node → List NodeId
  | literal _ => []
  | binary node => [node.lhs, node.rhs]

/-- Whose values a node has yet to take. A literal waits to be asked, which
    takes no producer. -/
def awaits : Node → List (Option NodeId)
  | literal _ => [none]
  | binary node => node.awaits.map some

/-- Each node awaits something: a literal the start of the run, any other node
    its operands. -/
theorem exists_mem_awaits (node : Node) : ∃ source, source ∈ node.awaits := by
  rcases node with value | ⟨op, lhs, rhs, _ | ⟨side, held⟩⟩
  · exact ⟨none, List.mem_cons_self⟩
  · exact ⟨some lhs, List.mem_cons_self⟩
  · exact ⟨_, List.mem_cons_self⟩

/-- A node waits for nothing but its operands. -/
theorem mem_operands_of_awaits {node : Node} {producer : NodeId} (h : some producer ∈ node.awaits) :
    producer ∈ node.idle.operands := by
  rcases node with value | ⟨op, lhs, rhs, _ | ⟨side, held⟩⟩
  · simp [awaits] at h
  · simpa [awaits, BinaryNode.awaits, operands, idle] using h
  · cases side <;> simp_all [awaits, BinaryNode.awaits, BinaryNode.operand, Side.other, operands, idle]

/-- How many inputs an idle node awaits from each source. A node that takes both
    operands from one source awaits it twice. -/
theorem awaits_idle (node : Node) (source : Option NodeId) :
    node.idle.awaits.count source = match source with
      | none => if node.operands = [] then 1 else 0
      | some id => node.operands.count id := by
  cases node with
  | literal value => cases source <;> simp [idle, awaits, operands]
  | binary node =>
    have hawaits : (Node.binary { node with held := none }).awaits = [some node.lhs, some node.rhs] := rfl
    rw [idle, hawaits]
    cases source with
    | none => simp [operands]
    | some id => simp [operands, List.count_cons]

end Node

namespace Graph

variable {graph : Graph Node} {id producer consumer : NodeId}

/-- The producers of the operands of the node of a name. -/
def operands (graph : Graph Node) (id : NodeId) : List NodeId :=
  (graph.entries[id.index]?.map fun entry => entry.node.operands).getD []

/-- Each node is a dependent of each of its operands, once, or twice where one
    is both. -/
def Exact (graph : Graph Node) : Prop :=
  ∀ producer consumer, (graph.dependents producer).count consumer = (graph.operands consumer).count producer

/-- No node depends on itself, be it through others. There is a number for each
    node that grows along all edges. -/
def Acyclic (graph : Graph Node) : Prop :=
  ∃ rank : NodeId → Nat, ∀ producer, ∀ consumer ∈ graph.dependents producer, rank producer < rank consumer

/-- Who takes the value of a source. At the start of a run there is no source,
    and the leaves are asked. -/
def handed (graph : Graph Node) : Option NodeId → List NodeId
  | none => graph.leaves
  | some id => graph.dependents id

/-- The operands of a node are looked up by its name. A name without a node has
    none. -/
theorem operands_eq {entry : GraphEntry Node} (hentry : graph.entries[id.index]? = some entry) :
    graph.operands id = entry.node.operands := by
  rw [operands, hentry]
  rfl

/-- The nodes that are taken by others are the dependents of some producer. -/
theorem mem_taken_iff : id ∈ graph.entries.toList.flatMap GraphEntry.dependents ↔ ∃ producer, id ∈ graph.dependents producer := by
  rw [List.mem_flatMap]
  constructor
  · rintro ⟨entry, hentry, hmem⟩
    obtain ⟨index, hindex⟩ := List.mem_iff_getElem?.mp hentry
    rw [Array.getElem?_toList] at hindex
    exact ⟨⟨index⟩, by rw [dependents, hindex]; exact hmem⟩
  · rintro ⟨producer, hmem⟩
    rw [dependents] at hmem
    split at hmem
    · next entry hentry => exact ⟨entry, List.mem_of_getElem? ((Array.getElem?_toList ..).trans hentry), hmem⟩
    · exact (List.not_mem_nil hmem).elim

/-- A leaf is a node of the graph that depends on no other. Leaves are found by
    removing all dependents from the nodes. -/
theorem mem_leaves : id ∈ graph.leaves ↔ id.index < graph.size ∧ ∀ producer, id ∉ graph.dependents producer := by
  rw [leaves, List.mem_filter, decide_eq_true_iff, mem_taken_iff, not_exists]
  refine and_congr ?_ Iff.rfl
  rw [List.mem_map]
  exact ⟨fun ⟨index, hindex, heq⟩ => heq ▸ List.mem_range.mp hindex, fun hlt => ⟨id.index, List.mem_range.mpr hlt, rfl⟩⟩

theorem nodup_leaves (graph : Graph Node) : graph.leaves.Nodup :=
  (List.Nodup.map (fun _ _ h => congrArg NodeId.index h) List.nodup_range).filter _

/-- Each node is told just what it waits for. Counted with repetitions, since a
    producer may be told of twice. -/
theorem Exact.count_handed (h : graph.Exact) {entry : GraphEntry Node} (hentry : graph.entries[id.index]? = some entry)
    (source : Option NodeId) : (graph.handed source).count id = entry.node.idle.awaits.count source := by
  rw [Node.awaits_idle]
  cases source with
  | some producer => rw [handed, h producer id, operands_eq hentry]
  | none =>
    have hlt : id.index < graph.size := (Array.getElem?_eq_some_iff.mp hentry).1
    have hleaf : id ∈ graph.leaves ↔ entry.node.operands = [] := by
      have hcount (producer : NodeId) : id ∉ graph.dependents producer ↔ producer ∉ entry.node.operands := by
        rw [← List.count_eq_zero, ← List.count_eq_zero, h producer id, operands_eq hentry]
      rw [mem_leaves, List.eq_nil_iff_forall_not_mem]
      simp only [hcount, hlt, true_and]
    rw [handed, graph.nodup_leaves.count]
    simp only [hleaf]

/-- Producers are nodes of the graph. -/
theorem lt_size_of_dependents (h : consumer ∈ graph.dependents producer) : producer.index < graph.size := by
  rw [dependents] at h
  split at h
  · next entry hentry => exact (Array.getElem?_eq_some_iff.mp hentry).1
  · exact (List.not_mem_nil h).elim

/-- A node at work waits for nothing that it is not a dependent of. What it
    holds has been taken off what it waits for. -/
theorem Exact.mem_dependents {plan : Graph Node} (h : plan.Exact) (hidle : graph.idle = plan) {entry : GraphEntry Node}
    (hentry : graph.entries[id.index]? = some entry) (hmem : some producer ∈ entry.node.awaits) :
    id ∈ plan.dependents producer := by
  have hplan : plan.entries[id.index]? = some { entry with node := entry.node.idle } := by
    rw [← hidle, getElem?_idle, hentry, Option.map_some]
  rw [← List.count_pos_iff, h producer id, operands_eq hplan, List.count_pos_iff]
  exact Node.mem_operands_of_awaits hmem

/-- Only nodes that are there are told anything. -/
theorem Exact.lt_size_of_mem (h : graph.Exact) {source : Option NodeId} (hmem : id ∈ graph.handed source) :
    id.index < graph.size := by
  cases source with
  | none => exact (mem_leaves.mp hmem).1
  | some producer =>
    by_contra hge
    have hoperands : graph.operands id = [] := by
      rw [operands, Array.getElem?_eq_none (Nat.le_of_not_lt hge)]
      rfl
    have hcount := h producer id
    rw [hoperands, List.count_nil, List.count_eq_zero] at hcount
    exact hcount hmem

end Graph

end StagedArrays
