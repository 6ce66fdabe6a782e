import Mathlib.Data.List.Perm.Subperm
import Mathlib.Logic.Relation
import StagedArrays.Proofs.Graph.Exact
import StagedArrays.Proofs.Graph.Nested

namespace StagedArrays

/-- A producer that fits a side of a node is the operand on that side. -/
theorem BinaryNode.eq_operand_of_sideOf? {node : BinaryNode} {producer : NodeId} {side : Side}
    (h : node.sideOf? producer = some side) : producer = node.operand side := by
  unfold sideOf? at h
  dsimp only at h
  split at h
  · next hlhs =>
    cases h
    exact hlhs.1
  · split at h
    · next hrhs =>
      cases h
      exact hrhs
    · cases h

theorem Node.operands_idle (node : Node) : node.idle.operands = node.operands := by cases node <;> rfl

namespace Graph

/-- A node that rests on literals alone, be it through others. Only such a node
    ever has a result. -/
inductive Founded (graph : Graph Node) : NodeId → Prop
  | node {id : NodeId} {entry : GraphEntry Node} (hentry : graph.entries[id.index]? = some entry)
      (hoperands : ∀ operand ∈ entry.node.operands, Founded graph operand) : Founded graph id

/-- One node is an operand of the other. The relation is about operands as nodes
    name them, and not about recorded edges. -/
def Feeds (graph : Graph Node) (producer consumer : NodeId) : Prop := producer ∈ graph.operands consumer

variable {graph after : Graph Node} {id producer : NodeId} {active : List NodeId}

theorem Founded.lt_size (h : graph.Founded id) : id.index < graph.size := by
  cases h with
  | node hentry => exact (Array.getElem?_eq_some_iff.mp hentry).1

/-- Nodes can be added. What founds a node is found in the larger graph too. -/
theorem Founded.mono (h : graph.Founded id)
    (hkeeps : ∀ (index : Nat) (entry : GraphEntry Node), graph.entries[index]? = some entry →
      ∃ kept : GraphEntry Node, after.entries[index]? = some kept ∧ kept.node.operands = entry.node.operands) :
    after.Founded id := by
  induction h with
  | @node id entry hentry _ ih =>
    obtain ⟨kept, hkept, hoperands⟩ := hkeeps _ _ hentry
    exact .node hkept (by rwa [hoperands])

theorem Founded.acc (h : graph.Founded id) : Acc graph.Feeds id := by
  induction h with
  | node hentry _ ih => exact ⟨_, fun producer hfeeds => ih producer (by rwa [← operands_eq hentry])⟩

/-- Around a cycle of operands no node is founded. Feeding is well-founded below
    such a node, and along a cycle it is not. -/
theorem Founded.not_cyclic (h : graph.Founded id) : ¬ Relation.TransGen graph.Feeds id id := by
  have hacc := h.acc.transGen
  induction hacc with
  | intro id _ ih => exact fun hcycle => ih id hcycle h hcycle

/-- Operands are held of founded nodes only. So nothing has come around a cycle
    so far. -/
def Rooted (graph : Graph Node) : Prop :=
  ∀ (index : Nat) (entry : GraphEntry Node) (node : BinaryNode) (side : Side) (held : Variable),
    graph.entries[index]? = some entry → entry.node = .binary node → node.held = some (side, held) →
    graph.idle.Founded (node.operand side)

/-- In a graph that holds no input, each held input has a round it came from. -/
theorem rooted_of_heldBy (h : ∀ index, graph.heldBy index = none) : graph.Rooted := by
  intro index entry node side held hentry hnode hheld
  have hnone := h index
  rw [heldBy, hentry, Option.bind_some, hnode] at hnone
  simp [Node.held?, hheld] at hnone

/-- A node may hold an operand of a founded node. The operands of other nodes
    are left as they are. -/
theorem Rooted.setNode {entry : GraphEntry Node} {node : Node} (h : graph.Rooted)
    (hentry : graph.entries[id.index]? = some entry) (hidle : node.idle = entry.node.idle)
    (hheld : ∀ found side held, node = .binary found → found.held = some (side, held) → graph.idle.Founded (found.operand side)) :
    (graph.setNode id node).Rooted := by
  intro index other found side held hother hfound hside
  rw [idle_setNode hentry hidle]
  rw [getElem?_setNode] at hother
  split at hother
  · next heq =>
    rw [← heq, hentry, Option.map_some] at hother
    obtain rfl := Option.some.inj hother
    exact hheld found side held hfound hside
  · exact h index other found side held hother hfound hside

/-- The nodes whose results are under way, the last first: all are founded, and
    each is fed by those after it. -/
structure Line (graph : Graph Node) (active : List NodeId) : Prop where
  founded : ∀ id ∈ active, graph.Founded id
  fed : active.Pairwise fun id producer => Relation.TransGen graph.Feeds producer id

namespace Line

theorem nil (graph : Graph Node) : graph.Line [] := ⟨fun _ h => (List.not_mem_nil h).elim, .nil⟩

/-- A node can join that the last one feeds. -/
theorem cons (h : graph.Line active) (hfounded : graph.Founded id) (hfeeds : ∀ producer ∈ active.head?, graph.Feeds producer id) :
    graph.Line (id :: active) := by
  refine ⟨fun other hmem => ?_, List.pairwise_cons.mpr ⟨fun other hmem => ?_, h.fed⟩⟩
  · rcases List.mem_cons.mp hmem with rfl | hmem
    · exact hfounded
    · exact h.founded other hmem
  · cases active with
    | nil => exact (List.not_mem_nil hmem).elim
    | cons last rest =>
      have hlast : graph.Feeds last id := hfeeds last rfl
      rcases List.mem_cons.mp hmem with rfl | hmem
      · exact .single hlast
      · exact .tail ((List.pairwise_cons.mp h.fed).1 other hmem) hlast

/-- A binary node can join behind one of its operands if the other is
    founded. -/
theorem cons_binary {entry : GraphEntry Node} {node : BinaryNode} {side other : Side} (h : graph.Line active)
    (hentry : graph.entries[id.index]? = some entry) (hnode : entry.node.operands = (Node.binary node).operands)
    (hlast : active.head? = some (node.operand side)) (hne : other ≠ side) (hother : graph.Founded (node.operand other)) :
    graph.Line (id :: active) := by
  have hoperands (operand : NodeId) : operand ∈ (Node.binary node).operands →
      operand = node.operand side ∨ operand = node.operand other := by
    intro hmem
    rcases List.mem_pair.mp hmem with rfl | rfl
    · cases side <;> cases other <;> first | exact .inl rfl | exact .inr rfl | exact (hne rfl).elim
    · cases side <;> cases other <;> first | exact .inl rfl | exact .inr rfl | exact (hne rfl).elim
  refine h.cons (.node hentry ?_) ?_
  · rw [hnode]
    intro operand hmem
    rcases hoperands operand hmem with rfl | rfl
    · exact h.founded _ (List.mem_of_mem_head? hlast)
    · exact hother
  · intro last hhead
    obtain rfl : node.operand side = last := Option.some.inj (hlast.symm.trans hhead)
    rw [Feeds, operands_eq hentry, hnode]
    cases side with
    | lhs => exact List.mem_cons_self
    | rhs => exact List.mem_cons_of_mem _ List.mem_cons_self

/-- No node is twice in a line. A node that came up again would lie on a cycle
    of operands. -/
theorem nodup (h : graph.Line active) : active.Nodup := by
  refine List.Pairwise.imp_of_mem (fun {id producer} hid _ hfed => ?_) h.fed
  rintro rfl
  exact (h.founded id hid).not_cyclic hfed

/-- There are no more of them than nodes. -/
theorem length_le (h : graph.Line active) : active.length ≤ graph.size := by
  have hnodup : (active.map NodeId.index).Nodup :=
    h.nodup.map_on fun a _ b _ heq => by
      cases a
      cases b
      exact congrArg NodeId.mk heq
  have hsub : active.map NodeId.index ⊆ List.range graph.size := fun index hmem => by
    obtain ⟨id, hid, rfl⟩ := List.mem_map.mp hmem
    exact List.mem_range.mpr (h.founded id hid).lt_size
  simpa using (hnodup.subperm hsub).length_le

end Line

end Graph

namespace Event

/-- The nodes whose results are under way after some events, the last first. -/
def inFlight (events : List Event) : List NodeId :=
  events.foldl (fun active event => match event with
    | processed id _ => id :: active
    | released id _ | retained id _ => active.erase id
    | allocated .. | freed .. => active) []

/-- No node has another result while its last one is under way. -/
def Spaced (events : List Event) : Prop :=
  ∀ before id result, before ++ [processed id result] <+: events → id ∉ inFlight before

variable {events : List Event} {event : Event} {id : NodeId} {result : Variable}

theorem spaced_nil : Spaced [] := fun before _ _ h => by simp at h

theorem inFlight_processed (events : List Event) (id : NodeId) (result : Variable) :
    inFlight (events ++ [processed id result]) = id :: inFlight events := List.foldl_concat ..

/-- A result that is settled is no longer under way. It was the last one that
    had been announced. -/
theorem inFlight_settled {active : List NodeId} (h : inFlight events = id :: active) (retention : Retention) :
    inFlight (events ++ [retention.closingEvent id result]) = active := by
  have herase : inFlight (events ++ [retention.closingEvent id result]) = (inFlight events).erase id := by
    cases retention <;> exact List.foldl_concat ..
  rw [herase, h, List.erase_cons_head]

/-- One more event keeps results apart if it reports no node that is already in
    flight. -/
theorem Spaced.append (h : Spaced events) (hnew : ∀ id result, event = processed id result → id ∉ inFlight events) :
    Spaced (events ++ [event]) := by
  intro before id result hbefore
  rcases List.prefix_concat_iff.mp hbefore with heq | hbefore
  · obtain ⟨rfl, hevent⟩ := List.append_inj' heq rfl
    exact hnew id result (List.singleton_inj.mp hevent).symm
  · exact h before id result hbefore

theorem Spaced.append_settled (h : Spaced events) (id : NodeId) (result : Variable) (retention : Retention) :
    Spaced (events ++ [retention.closingEvent id result]) :=
  h.append fun _ _ heq => by cases retention <;> cases heq

end Event

end StagedArrays
