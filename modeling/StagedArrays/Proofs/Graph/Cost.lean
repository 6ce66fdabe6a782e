import Mathlib.Algebra.BigOperators.Group.Finset.Piecewise
import Mathlib.Algebra.BigOperators.Ring.Finset
import Mathlib.Algebra.Order.BigOperators.Group.Finset
import StagedArrays.Proofs.Graph.Reset

namespace StagedArrays

namespace Node

def isBinary : Node → Bool
  | literal _ => false
  | binary _ => true

/-- How many slots a node may have asked for: one for a first operand, and one
    for the result. -/
def cost (done : Bool) : Node → Nat
  | literal _ => 0
  | binary node => if done then 2 else if node.held.isSome then 1 else 0

end Node

namespace Graph

/-- Whether the node of a name is an operation. -/
def isBinary (graph : Graph Node) (id : NodeId) : Bool := graph.entries[id.index]?.any (·.node.isBinary)

/-- The number of operations. A run asks for two slots at most for each. -/
def binaries (graph : Graph Node) : Nat := ((Finset.range graph.size).filter fun index => graph.isBinary ⟨index⟩).card

/-- How many slots the node of a name may have asked for, given which nodes are
    done. -/
def cost (graph : Graph Node) (fired : List NodeId) (index : Nat) : Nat :=
  (graph.entries[index]?.map fun entry => entry.node.cost (decide ((⟨index⟩ : NodeId) ∈ fired))).getD 0

variable {graph : Graph Node} {id : NodeId} {entry : GraphEntry Node} {node : BinaryNode}

theorem isBinary_of_entry (hentry : graph.entries[id.index]? = some entry) : graph.isBinary id = entry.node.isBinary := by
  rw [isBinary, hentry, Option.any_some]

section Cost

variable {fired fired' : List NodeId} (next : Node)

/-- A step of one node does not change what others cost. The cost of a node
    depends on what it holds and whether it has fired. -/
theorem cost_setNode_of_ne {index : Nat} (hne : index ≠ id.index) (hfired : ∀ other, other ≠ id → (other ∈ fired' ↔ other ∈ fired)) :
    (graph.setNode id next).cost fired' index = graph.cost fired index := by
  have hid : (⟨index⟩ : NodeId) ≠ id := fun heq => hne (heq ▸ rfl)
  simp only [cost, getElem?_setNode, if_neg (Ne.symm hne), hfired _ hid]

theorem cost_setNode_self (hentry : graph.entries[id.index]? = some entry) :
    (graph.setNode id next).cost fired' id.index = next.cost (decide (id ∈ fired')) := by
  simp only [cost, getElem?_setNode, if_pos, hentry, Option.map_some, Option.getD_some]

theorem cost_self (hentry : graph.entries[id.index]? = some entry) :
    graph.cost fired id.index = entry.node.cost (decide (id ∈ fired)) := by
  rw [cost, hentry, Option.map_some, Option.getD_some]

/-- The cost of a node does not fall where the other nodes have fired as before
    and the cost of the node that is set does not fall. -/
theorem cost_le_setNode (hentry : graph.entries[id.index]? = some entry)
    (hfired : ∀ other, other ≠ id → (other ∈ fired' ↔ other ∈ fired))
    (hcost : entry.node.cost (decide (id ∈ fired)) ≤ next.cost (decide (id ∈ fired'))) (index : Nat) :
    graph.cost fired index ≤ (graph.setNode id next).cost fired' index := by
  by_cases hindex : index = id.index
  · subst hindex
    rw [cost_self hentry, cost_setNode_self next hentry]
    exact hcost
  · exact Nat.le_of_eq (cost_setNode_of_ne next hindex hfired).symm

/-- A step makes up in cost for the slot it asks for. The sum over all nodes
    bounds the slots from above. -/
theorem sum_cost_lt (hentry : graph.entries[id.index]? = some entry)
    (hfired : ∀ other, other ≠ id → (other ∈ fired' ↔ other ∈ fired))
    (hcost : entry.node.cost (decide (id ∈ fired)) < next.cost (decide (id ∈ fired'))) :
    ∑ index ∈ Finset.range graph.size, graph.cost fired index <
      ∑ index ∈ Finset.range graph.size, (graph.setNode id next).cost fired' index := by
  have hlt : id.index < graph.size := (Array.getElem?_eq_some_iff.mp hentry).1
  refine Finset.sum_lt_sum (fun index _ => cost_le_setNode next hentry hfired (Nat.le_of_lt hcost) index)
    ⟨id.index, Finset.mem_range.mpr hlt, ?_⟩
  rw [cost_self hentry, cost_setNode_self next hentry]
  exact hcost

/-- As long as an operation is not done, there is room for a slot, if there is
    room for two slots for each operation. -/
theorem sum_cost_lt_binaries (hentry : graph.entries[id.index]? = some entry) (hnode : entry.node = .binary node)
    (hnew : id ∉ fired) : ∑ index ∈ Finset.range graph.size, graph.cost fired index < 2 * graph.binaries := by
  have hlt : id.index < graph.size := (Array.getElem?_eq_some_iff.mp hentry).1
  have hbound (index : Nat) : graph.cost fired index ≤ 2 * if graph.isBinary ⟨index⟩ = true then 1 else 0 := by
    rw [cost, isBinary]
    cases graph.entries[index]? with
    | none => exact Nat.zero_le _
    | some entry =>
      rw [Option.map_some, Option.getD_some, Option.any_some]
      cases entry.node with
      | literal value => exact Nat.zero_le _
      | binary node =>
        simp only [Node.cost, Node.isBinary]
        split
        · exact Nat.le_refl _
        · split <;> decide
  rw [binaries, Finset.card_filter, Finset.mul_sum]
  refine Finset.sum_lt_sum (fun index _ => hbound index) ⟨id.index, Finset.mem_range.mpr hlt, ?_⟩
  have hbinary : graph.isBinary id = true := by rw [isBinary_of_entry hentry, hnode]; rfl
  rw [cost_self hentry, hnode, if_pos hbinary, Node.cost, if_neg (by simpa using hnew)]
  split <;> decide

end Cost

/-- Whether a node combines two operands does not depend on what it has
    received. -/
theorem isBinary_idle (graph : Graph Node) (id : NodeId) : graph.idle.isBinary id = graph.isBinary id := by
  rw [isBinary, isBinary, getElem?_idle]
  cases graph.entries[id.index]? with
  | none => rfl
  | some entry =>
    rw [Option.map_some, Option.any_some, Option.any_some]
    cases entry.node <;> rfl

theorem binaries_idle (graph : Graph Node) : graph.idle.binaries = graph.binaries := by
  simp only [binaries, size_idle, isBinary_idle]

end Graph

end StagedArrays
