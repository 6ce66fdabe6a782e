import Mathlib.Data.List.Perm.Subperm
import Mathlib.Data.Nat.Init
import StagedArrays.Proofs.Graph.Exact

namespace StagedArrays

/-- For each source of values, those that have yet to take its value: the rest
    of its round, all before it, none after it. -/
structure Delivery (plan : Graph Node) (size : Nat) (fired : List NodeId) (pending : Option NodeId → List NodeId)
    (rounds : List Round) : Prop where
  sourced : ∀ round ∈ rounds, round.input.isSome = round.source.isSome
  distinct : (rounds.map Round.source).Nodup
  flying : ∀ id, some id ∈ rounds.map Round.source → id ∈ fired
  lt_size : ∀ id ∈ fired, id.index < size
  pending_lt : ∀ {source id}, id ∈ pending source → id.index < size
  rest_eq : ∀ round ∈ rounds, pending round.source = round.rest
  ahead : ∀ id, id ∉ fired → pending (some id) = plan.dependents id
  behind : ∀ id ∈ fired, some id ∉ rounds.map Round.source → pending (some id) = []

namespace Delivery

variable {plan : Graph Node} {size : Nat} {fired : List NodeId} {pending : Option NodeId → List NodeId} {rounds : List Round}
  {id : NodeId} {source : Option NodeId} {input : Option Variable} {rest : List NodeId} {result : Variable}

/-- One more has taken the value of a source. What is pending of the source
    becomes shorter by one. -/
theorem take (h : Delivery plan size fired pending (⟨source, input, id :: rest⟩ :: rounds)) :
    Delivery plan size fired (Function.update pending source rest) (⟨source, input, rest⟩ :: rounds) where
  sourced round hmem := by
    rcases List.mem_cons.mp hmem with rfl | hmem
    · exact h.sourced ⟨source, input, id :: rest⟩ List.mem_cons_self
    · exact h.sourced round (List.mem_cons_of_mem _ hmem)
  distinct := h.distinct
  flying := h.flying
  lt_size := h.lt_size
  pending_lt {other found} hmem := by
    by_cases hsource : other = source
    · subst hsource
      rw [Function.update_self] at hmem
      have hrest : pending other = id :: rest := h.rest_eq _ List.mem_cons_self
      have hmem' : found ∈ pending other := hrest ▸ List.mem_cons_of_mem _ hmem
      exact h.pending_lt hmem'
    · rw [Function.update_of_ne hsource] at hmem
      exact h.pending_lt hmem
  rest_eq round hmem := by
    rcases List.mem_cons.mp hmem with rfl | hmem
    · exact Function.update_self ..
    · have hmem' : round.source ∈ rounds.map Round.source := List.mem_map_of_mem hmem
      have hne : round.source ≠ source := fun heq => (List.nodup_cons.mp h.distinct).1 (heq ▸ hmem')
      rw [Function.update_of_ne hne]
      exact h.rest_eq round (List.mem_cons_of_mem _ hmem)
  ahead other hnot := by
    have hne : some other ≠ source := fun heq => hnot (h.flying other (heq ▸ List.mem_cons_self))
    rw [Function.update_of_ne hne]
    exact h.ahead other hnot
  behind other hmem hnot := by
    have hne : some other ≠ source := fun heq => hnot (heq ▸ List.mem_cons_self)
    rw [Function.update_of_ne hne]
    exact h.behind other hmem hnot

/-- A node that is done is one more source. All of its takers are pending. -/
theorem begin_round (h : Delivery plan size fired pending rounds) (hnew : id ∉ fired) (hlt : id.index < size) :
    Delivery plan size (fired ++ [id]) pending (⟨some id, some result, plan.dependents id⟩ :: rounds) where
  sourced round hmem := by
    rcases List.mem_cons.mp hmem with rfl | hmem
    · rfl
    · exact h.sourced round hmem
  distinct := List.nodup_cons.mpr ⟨fun hmem => hnew (h.flying id hmem), h.distinct⟩
  flying other hmem := by
    rcases List.mem_cons.mp hmem with heq | hmem
    · cases heq
      exact List.mem_append_right _ List.mem_cons_self
    · exact List.mem_append_left _ (h.flying other hmem)
  lt_size other hmem := by
    rcases List.mem_append.mp hmem with hmem | hmem
    · exact h.lt_size other hmem
    · rwa [List.mem_singleton.mp hmem]
  pending_lt := h.pending_lt
  rest_eq round hmem := by
    rcases List.mem_cons.mp hmem with rfl | hmem
    · exact h.ahead id hnew
    · exact h.rest_eq round hmem
  ahead other hnot := h.ahead other fun hmem => hnot (List.mem_append_left _ hmem)
  behind other hmem hnot := by
    rcases List.mem_append.mp hmem with hmem | hmem
    · exact h.behind other hmem fun hflying => hnot (List.mem_cons_of_mem _ hflying)
    · rw [List.mem_singleton.mp hmem] at hnot
      exact (hnot List.mem_cons_self).elim

/-- A source all of whose takers have its value is done with. The rounds below
    it go on. -/
theorem end_round (h : Delivery plan size fired pending (⟨some id, some result, []⟩ :: rounds)) :
    Delivery plan size fired pending rounds where
  sourced round hmem := h.sourced round (List.mem_cons_of_mem _ hmem)
  distinct := (List.nodup_cons.mp h.distinct).2
  flying other hmem := h.flying other (List.mem_cons_of_mem _ hmem)
  lt_size := h.lt_size
  pending_lt := h.pending_lt
  rest_eq round hmem := h.rest_eq round (List.mem_cons_of_mem _ hmem)
  ahead := h.ahead
  behind other hmem hnot := by
    by_cases heq : other = id
    · subst heq
      exact h.rest_eq ⟨some other, some result, []⟩ List.mem_cons_self
    · exact h.behind other hmem fun hflying => (List.mem_cons.mp hflying).elim (fun hsame => heq (Option.some.inj hsame)) hnot

/-- There are no more rounds than nodes, apart from the first. Each of them
    belongs to a node of its own. -/
theorem length_le (h : Delivery plan size fired pending rounds) : rounds.length ≤ size + 1 := by
  let sources := none :: (List.range size).map fun index => some (⟨index⟩ : NodeId)
  have hsub : rounds.map Round.source ⊆ sources := by
    rintro (_ | id) hmem
    · exact List.mem_cons_self
    · have hlt := h.lt_size id (h.flying id hmem)
      exact List.mem_cons_of_mem _ (List.mem_map.mpr ⟨id.index, List.mem_range.mpr hlt, rfl⟩)
  have hle := (List.Nodup.subperm h.distinct hsub).length_le
  simpa [sources] using hle

end Delivery

namespace Graph

/-- What a node still waits for, given which nodes are done. A node that is done
    waits for nothing. -/
def due (fired : List NodeId) (id : NodeId) (node : Node) : List (Option NodeId) :=
  if id ∈ fired then [] else node.awaits

/-- How far a run has got: those that have yet to take a value are just the
    nodes that still wait for it. -/
structure Progress (plan : Graph Node) (fired : List NodeId) (pending : Option NodeId → List NodeId) (rounds : List Round)
    (graph : Graph Node) : Prop extends Delivery plan graph.size fired pending rounds where
  count_eq : ∀ {id entry}, graph.entries[id.index]? = some entry →
    ∀ source, (pending source).count id = (due fired id entry.node).count source
  spent : ∀ {id entry}, graph.entries[id.index]? = some entry → id ∈ fired → entry.node.held? = none

variable {plan graph : Graph Node} {fired : List NodeId} {pending : Option NodeId → List NodeId} {rounds : List Round}
  {id : NodeId} {source : Option NodeId} {input : Option Variable} {rest : List NodeId} {result : Variable}
  {entry : GraphEntry Node} {node : Node}

theorem node_idle_of_idle (hidle : graph.idle = graph) (hentry : graph.entries[id.index]? = some entry) :
    entry.node.idle = entry.node := by
  have hsame := graph.getElem?_idle id.index
  rw [hidle, hentry, Option.map_some] at hsame
  exact (congrArg GraphEntry.node (Option.some.inj hsame)).symm

/-- A node of a graph that has another node under a name. -/
theorem getElem?_setNode_cases (hentry : graph.entries[id.index]? = some entry) {other : NodeId} {found : GraphEntry Node}
    (hfound : (graph.setNode id node).entries[other.index]? = some found) :
    other = id ∧ found = { entry with node } ∨ other ≠ id ∧ graph.entries[other.index]? = some found := by
  rw [getElem?_setNode] at hfound
  split at hfound
  · next heq =>
    obtain rfl : id = other := by cases id; cases other; cases heq; rfl
    rw [hentry, Option.map_some] at hfound
    exact .inl ⟨rfl, (Option.some.inj hfound).symm⟩
  · next hne => exact .inr ⟨fun heq => hne (heq ▸ rfl), hfound⟩

namespace Progress

/-- Before a run each source has to be taken by those it is for. Nothing has
    been delivered yet. -/
theorem start (hexact : plan.Exact) (hidle : plan.idle = plan) :
    Progress plan [] plan.handed [⟨none, none, plan.leaves⟩] plan where
  sourced := by simp
  distinct := List.nodup_singleton none
  flying := by simp
  lt_size := by simp
  pending_lt hmem := hexact.lt_size_of_mem hmem
  rest_eq := by simp [handed]
  ahead _ _ := rfl
  behind := by simp
  count_eq hentry source := by
    rw [hexact.count_handed hentry, node_idle_of_idle hidle hentry, due, if_neg List.not_mem_nil]
  spent _ hmem := (List.not_mem_nil hmem).elim

/-- The next node to be told is there, not done yet, and waiting. So there is
    something for it to do. -/
theorem next (h : Progress plan fired pending (⟨source, input, id :: rest⟩ :: rounds) graph) :
    ∃ entry, graph.entries[id.index]? = some entry ∧ id ∉ fired ∧ source ∈ entry.node.awaits := by
  have hrest : pending source = id :: rest := h.rest_eq _ List.mem_cons_self
  have hmem : id ∈ pending source := hrest ▸ List.mem_cons_self
  have hentry := Array.getElem?_eq_getElem (h.pending_lt hmem)
  have hpositive : 0 < (pending source).count id := List.count_pos_iff.mpr hmem
  rw [h.count_eq hentry source, List.count_pos_iff, due] at hpositive
  split at hpositive
  · exact (List.not_mem_nil hpositive).elim
  · next hnew => exact ⟨_, hentry, hnew, hpositive⟩

/-- A node that takes a value waits for one less, and so does the source. The
    two counts stay equal. -/
theorem count_eq_take (h : Progress plan fired pending (⟨source, input, id :: rest⟩ :: rounds) graph)
    (hentry : graph.entries[id.index]? = some entry) {fired' : List NodeId}
    (hnode : (due fired id entry.node).Perm (source :: due fired' id node))
    (hfired : ∀ other, other ≠ id → (other ∈ fired' ↔ other ∈ fired)) {other : NodeId} {found : GraphEntry Node}
    (hfound : (graph.setNode id node).entries[other.index]? = some found) (source' : Option NodeId) :
    (Function.update pending source rest source').count other = (due fired' other found.node).count source' := by
  have hrest : pending source = id :: rest := h.rest_eq _ List.mem_cons_self
  rcases getElem?_setNode_cases hentry hfound with ⟨rfl, rfl⟩ | ⟨hne, hfound⟩
  · have hcount := h.count_eq hentry source'
    rw [hnode.count_eq, List.count_cons] at hcount
    by_cases hsource : source' = source
    · subst hsource
      rw [hrest, List.count_cons_self] at hcount
      rw [Function.update_self]
      simpa using hcount
    · rw [Function.update_of_ne hsource, hcount]
      simp [Ne.symm hsource]
  · have hdue : due fired' other found.node = due fired other found.node := by
      simp only [due, hfired other hne]
    rw [hdue, ← h.count_eq hfound source']
    by_cases hsource : source' = source
    · subst hsource
      rw [Function.update_self, hrest, List.count_cons_of_ne (Ne.symm hne)]
    · rw [Function.update_of_ne hsource]

/-- A node that takes a first operand waits for the other. -/
theorem hold (h : Progress plan fired pending (⟨source, input, id :: rest⟩ :: rounds) graph)
    (hentry : graph.entries[id.index]? = some entry) (hnew : id ∉ fired)
    (hnode : entry.node.awaits.Perm (source :: node.awaits)) :
    Progress plan fired (Function.update pending source rest) (⟨source, input, rest⟩ :: rounds) (graph.setNode id node) where
  toDelivery := by
    rw [size_setNode]
    exact h.toDelivery.take
  count_eq := h.count_eq_take hentry (by rwa [due, due, if_neg hnew, if_neg hnew]) fun _ _ => Iff.rfl
  spent {other found} hfound hmem := by
    rcases getElem?_setNode_cases hentry hfound with ⟨rfl, -⟩ | ⟨-, hfound⟩
    · exact (hnew hmem).elim
    · exact h.spent hfound hmem

/-- A node that takes its last operand is done, and its dependents are to be
    told. -/
theorem fire (h : Progress plan fired pending (⟨source, input, id :: rest⟩ :: rounds) graph)
    (hentry : graph.entries[id.index]? = some entry) (hnew : id ∉ fired) (hnode : entry.node.awaits = [source])
    (hheld : node.held? = none) :
    Progress plan (fired ++ [id]) (Function.update pending source rest)
      (⟨some id, some result, plan.dependents id⟩ :: ⟨source, input, rest⟩ :: rounds) (graph.setNode id node) := by
  have hself : id ∈ fired ++ [id] := List.mem_append_right _ List.mem_cons_self
  have hfired (other : NodeId) (hne : other ≠ id) : other ∈ fired ++ [id] ↔ other ∈ fired := by simp [hne]
  refine ⟨?_, h.count_eq_take hentry (by rw [due, due, if_neg hnew, if_pos hself, hnode]) hfired, ?_⟩
  · rw [size_setNode]
    exact h.toDelivery.take.begin_round hnew (Array.getElem?_eq_some_iff.mp hentry).1
  · intro other found hfound hmem
    rcases getElem?_setNode_cases hentry hfound with ⟨rfl, rfl⟩ | ⟨hne, hfound⟩
    · exact hheld
    · exact h.spent hfound ((hfired other hne).mp hmem)

/-- A result that all its takers have seen is done with. Whether it is kept is
    of no concern here. -/
theorem settle (h : Progress plan fired pending (⟨some id, some result, []⟩ :: rounds) graph) :
    Progress plan fired pending rounds graph :=
  ⟨h.toDelivery.end_round, h.count_eq, h.spent⟩

/-- What is kept makes no difference. -/
theorem of_entries_eq (h : Progress plan fired pending rounds graph) {after : Graph Node} (hentries : after.entries = graph.entries) :
    Progress plan fired pending rounds after := by
  have hsize : after.size = graph.size := by rw [size, hentries, size]
  refine ⟨hsize ▸ h.toDelivery, ?_, ?_⟩
  · rw [hentries]
    exact h.count_eq
  · rw [hentries]
    exact h.spent

/-- In the end every node is done, where none depends on itself. By induction on
    the rank of the node, since nothing is pending any more. -/
theorem mem_fired (h : Progress plan fired pending [⟨none, none, []⟩] graph) (hidle : graph.idle = plan) (hexact : plan.Exact)
    (hacyclic : plan.Acyclic) (hlt : id.index < graph.size) : id ∈ fired := by
  obtain ⟨rank, hrank⟩ := hacyclic
  generalize hn : rank id = n
  induction n using Nat.strong_induction_on generalizing id with
  | _ n ih =>
    by_contra hnew
    have hentry := Array.getElem?_eq_getElem hlt
    obtain ⟨source, hsource⟩ := Node.exists_mem_awaits graph.entries[id.index].node
    have hcount := h.count_eq hentry source
    rw [due, if_neg hnew] at hcount
    have hpending : id ∈ pending source := List.count_pos_iff.mp (hcount ▸ List.count_pos_iff.mpr hsource)
    have hdone : pending source = [] := by
      cases source with
      | none => exact h.rest_eq ⟨none, none, []⟩ List.mem_cons_self
      | some producer =>
        have hmem : id ∈ plan.dependents producer := hexact.mem_dependents hidle hentry hsource
        have hproducer : producer.index < graph.size := by
          rw [← size_idle, hidle]
          exact lt_size_of_dependents hmem
        exact h.behind producer (ih _ (hn ▸ hrank producer id hmem) hproducer rfl) (by simp)
    rw [hdone] at hpending
    exact List.not_mem_nil hpending

end Progress

end Graph

end StagedArrays
