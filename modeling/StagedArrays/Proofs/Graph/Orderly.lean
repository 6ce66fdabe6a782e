import StagedArrays.Proofs.Graph.Fresh
import StagedArrays.Proofs.Graph.Progress
import StagedArrays.Proofs.Graph.Tally

namespace StagedArrays

open Stateful (Ends)

namespace Node

/-- The ways in which a node takes a value that it waits for. A refusal is not
    among them. -/
inductive Accepts : Node → Option NodeId → Option Variable → Reaction → Prop
  | give (value : Variable) : Accepts (.literal value) none none (.give value)
  | hold (node : BinaryNode) (side : Side) (operand : Variable) (hheld : node.held = none) :
    Accepts (.binary node) (some (node.operand side)) (some operand) (.hold node side operand)
  | combine (node : BinaryNode) (side : Side) (held operand : Variable) (hheld : node.held = some (side.other, held)) :
    Accepts (.binary node) (some (node.operand side)) (some operand) (.combine node side held operand)

variable {node : Node} {source : Option NodeId} {input : Option Variable}

/-- What a node waits for it does not refuse. It may still fail to store or to
    compute it. -/
theorem accepts_of_awaits (h : source ∈ node.awaits) (hinput : input.isSome = source.isSome) :
    node.Accepts source input (node.reaction source input) := by
  cases node with
  | literal value =>
    obtain rfl := List.mem_singleton.mp h
    obtain rfl := Option.isSome_eq_false_iff.mp hinput |> Option.isNone_iff_eq_none.mp
    exact .give value
  | binary node =>
    obtain ⟨producer, hproducer, rfl⟩ := List.mem_map.mp h
    obtain ⟨operand, rfl⟩ := Option.isSome_iff_exists.mp hinput
    obtain ⟨side, hside, rfl, hother⟩ := BinaryNode.exists_sideOf?_eq hproducer
    rw [reaction, BinaryNode.reaction.eq_def]
    simp only [hside]
    cases hheld : node.held with
    | none => exact .hold node side operand hheld
    | some held =>
      obtain ⟨heldSide, held⟩ := held
      obtain rfl := hother heldSide held hheld
      have hne : heldSide ≠ heldSide.other := by cases heldSide <;> decide
      simp only [if_neg hne]
      refine .combine node _ held operand ?_
      cases heldSide <;> exact hheld

end Node

namespace BinaryNode

variable {node : BinaryNode} {side : Side} {held : Variable}

/-- A node that holds one operand waits for the other. If both come from one
    producer, it waits for it once more. -/
theorem awaits_hold (hheld : node.held = none) (side : Side) (held : Variable) :
    (Node.binary node).awaits.Perm
      (some (node.operand side) :: (Node.binary { node with held := some (side, held) }).awaits) := by
  have hawaits : (Node.binary node).awaits = [some node.lhs, some node.rhs] := by
    rw [Node.awaits, awaits, hheld]
    rfl
  rw [hawaits]
  cases side with
  | lhs => exact .refl _
  | rhs => exact .swap _ _ _

/-- A node that holds one operand waits for that of the other side only. It
    combines them when it comes. -/
theorem awaits_combine (hheld : node.held = some (side.other, held)) :
    (Node.binary node).awaits = [some (node.operand side)] := by
  rw [Node.awaits, awaits, hheld]
  cases side <;> rfl

end BinaryNode

namespace Graph

variable {σ : Type} {state : GraphState Node σ} {plan : Graph Node} {fired : List NodeId}
  {pending : Option NodeId → List NodeId} {rounds : List Round} {id : NodeId} {source : Option NodeId}
  {input : Option Variable} {rest : List NodeId}

/-- What is to be told next is accepted. So a run whose edges are exact never
    sees a refusal. -/
theorem Progress.accepts (h : Progress plan fired pending (⟨source, input, id :: rest⟩ :: rounds) state.graph) :
    ∃ entry, state.graph.entries[id.index]? = some entry ∧ id ∉ fired ∧
      entry.node.Accepts source input (entry.node.reaction source input) := by
  obtain ⟨entry, hentry, hnew, hawaits⟩ := h.next
  exact ⟨entry, hentry, hnew, Node.accepts_of_awaits hawaits (h.sourced _ List.mem_cons_self)⟩

/-- A step of a node is one step further. -/
theorem Progress.receives (h : Progress plan fired pending (⟨source, input, id :: rest⟩ :: rounds) state.graph) :
    Ends (fun result after => ∃ pending, match result with
        | none => Progress plan fired pending (⟨source, input, rest⟩ :: rounds) after.graph
        | some result => id ∉ fired ∧ Progress plan (fired ++ [id]) pending
            (⟨some id, some result, plan.dependents id⟩ :: ⟨source, input, rest⟩ :: rounds) after.graph)
      (fun _ _ => True) True ((GraphM.onNode id (GraphNode.process source input)).runFrom state) := by
  obtain ⟨entry, hentry, hnew, haccepts⟩ := h.accepts
  rw [GraphM.runFrom_process hentry]
  have hself := Graph.setNode_self hentry
  generalize hnode : entry.node = node at haccepts hself ⊢
  generalize node.reaction source input = reaction at haccepts
  cases haccepts with
  | give value =>
    refine .of_ok ⟨Function.update pending none rest, hnew, ?_⟩
    rw [← hself]
    exact h.fire hentry hnew (by rw [hnode]; rfl) rfl
  | hold node side operand hheld =>
    dsimp only
    generalize (BinaryNode.hold operand).runFrom state.activity = run
    obtain ⟨(cause | fault) | held, activity⟩ := run
    · exact .of_error trivial
    · exact .of_fault trivial
    · exact .of_ok ⟨_, h.hold hentry hnew (hnode ▸ BinaryNode.awaits_hold hheld side held)⟩
  | combine node side held operand hheld =>
    dsimp only
    generalize (BinaryNode.combine node.op side held operand).runFrom state.activity = run
    obtain ⟨(cause | fault) | result, activity⟩ := run
    · exact .of_error trivial
    · exact .of_fault trivial
    · exact .of_ok ⟨_, hnew, h.fire hentry hnew (hnode ▸ BinaryNode.awaits_combine hheld) rfl⟩

/-- The graph after a result has been settled. An output is listed, and of any
    other result nothing is left. -/
def settled {ν : Type} (graph : Graph ν) (id : NodeId) (result : Variable) : Retention → Graph ν
  | .output => graph.keep id result
  | .free => graph

end Graph

namespace GraphState

variable {σ : Type} {state : GraphState Node σ} {plan : Graph Node} {limit start : Nat} {base : List Nat} {rounds : List Round}
  {id : NodeId} {source : Option NodeId} {input : Option Variable} {rest rest' : List NodeId} {result : Variable}

/-- The books of a run: every result and every slot is accounted for, those of
    literals that have yet to give their variables as well. -/
structure Audited (plan : Graph Node) (limit start : Nat) (base : List Nat) (rounds : List Round) (state : GraphState Node σ) :
    Prop extends Tally plan start rounds state where
  idle_eq : state.graph.idle = plan
  limit_eq : GraphM.depthLimit state = limit
  accounts : Accounts (Variable.slotsOf (plan.waiting (state.activity.firedSince start)) ++ base) rounds state

/-- A run that goes on, with its books and all that is to be told. The progress
    of the run is about the graph, and the books about storage. -/
structure Orderly (plan : Graph Node) (limit start : Nat) (base : List Nat) (rounds : List Round) (state : GraphState Node σ) :
    Prop extends Audited plan limit start base rounds state where
  progress : ∃ pending, Graph.Progress plan (state.activity.firedSince start) pending rounds state.graph

theorem Audited.skip (h : Audited plan limit start base (⟨source, input, rest⟩ :: rounds) state) :
    Audited plan limit start base (⟨source, input, rest'⟩ :: rounds) state :=
  ⟨h.toTally.skip, h.idle_eq, h.limit_eq, h.accounts⟩

/-- A step of a node changes the size of nothing. -/
theorem limit_process (id : NodeId) (source : Option NodeId) (input : Option Variable) (state : GraphState Node σ) :
    GraphM.depthLimit ((GraphM.onNode id (GraphNode.process source input)).runFrom state).2 = GraphM.depthLimit state := by
  obtain ⟨hquiet, hidle, -⟩ := GraphM.process_keeps id source input state
  rw [GraphM.depthLimit, GraphM.depthLimit, hquiet.maxSlots_eq, ← Graph.size_idle, hidle, Graph.size_idle]

/-- What a step of a node means for the events so far. No result is passed on,
    kept or given up in it. -/
theorem same_process (hstart : start ≤ state.activity.journal.size) (id : NodeId) (source : Option NodeId)
    (input : Option Variable) :
    Ends (fun _ after => Tally.Same start state after) (fun _ after => Tally.Same start state after) True
      ((GraphM.onNode id (GraphNode.process source input)).runFrom state) := by
  obtain ⟨hquiet, -, houtputs⟩ := GraphM.process_keeps id source input state
  exact ⟨fun _ _ => .of_quiet hstart hquiet houtputs, fun _ _ => .of_quiet hstart hquiet houtputs, fun _ _ => trivial⟩

/-- The rounds are never too many. So the limit on the depth of notifications is
    not reached. -/
theorem Orderly.length_le (h : Orderly plan limit start base rounds state) : rounds.length ≤ limit := by
  obtain ⟨pending, hprogress⟩ := h.progress
  have hle := hprogress.length_le
  have hlimit : (state.graph.size + 1) * 1 ≤ GraphM.depthLimit state := Nat.mul_le_mul_left _ (by omega)
  rw [h.limit_eq] at hlimit
  omega

/-- A step of a node takes the slot of a literal out of those that wait. The
    node of an operation has no such slot. -/
theorem Audited.waiting_perm (h : Audited plan limit start base rounds state) (hnew : id ∉ state.activity.firedSince start)
    {entry : GraphEntry Node} (hentry : state.graph.entries[id.index]? = some entry) :
    (Variable.slotsOf (plan.waiting (state.activity.firedSince start)) ++ base).Perm
      (Variable.slotsOf entry.node.fixed?.toList ++
        (Variable.slotsOf (plan.waiting (state.activity.firedSince start ++ [id])) ++ base)) := by
  have hplanned := Graph.exists_plan_entry h.idle_eq hentry
  have hperm := (Graph.waiting_perm hplanned hnew).flatMap_right Variable.slots
  rw [List.flatMap_append, Node.fixed?_idle] at hperm
  rw [← List.append_assoc]
  exact hperm.append_right base

/-- A step of a node, with what it means for the books. Whichever way it ends,
    what is in use is accounted for. -/
theorem Orderly.receives (h : Orderly plan limit start base (⟨source, input, id :: rest⟩ :: rounds) state) :
    Ends (fun result after => match result with
        | none => Orderly plan limit start base (⟨source, input, rest⟩ :: rounds) after
        | some result => Orderly plan limit start base
            (⟨some id, some result, plan.dependents id⟩ :: ⟨source, input, rest⟩ :: rounds) (after.noted (.processed id result)))
      (fun _ after => Audited plan limit start base (⟨source, input, rest⟩ :: rounds) after) True
      ((GraphM.onNode id (GraphNode.process source input)).runFrom state) := by
  obtain ⟨pending, hprogress⟩ := h.progress
  obtain ⟨_, -, hnew, -⟩ := hprogress.accepts
  obtain ⟨hquiet, hidle, houtputs⟩ := GraphM.process_keeps id source input state
  have hlimit := limit_process id source input state
  have hsame := Tally.Same.of_quiet h.start_le hquiet houtputs
  have htally : Tally plan start (⟨source, input, rest⟩ :: rounds) _ := (h.toTally.same hsame).skip
  have hends := (h.accounts.receives (fun _ => h.waiting_perm hnew) (plan.dependents id)).and hprogress.receives
  refine ⟨fun result hresult => ?_, fun cause hcause => ?_, fun _ _ => trivial⟩
  · obtain ⟨haccounts, pending', hprogress'⟩ := hends.ok result hresult
    cases result with
    | none =>
      refine ⟨⟨htally, hidle.trans h.idle_eq, hlimit.trans h.limit_eq, ?_⟩, pending', hsame.fired ▸ hprogress'⟩
      rw [hsame.fired]
      exact haccounts
    | some result =>
      obtain ⟨hnew, hprogress'⟩ := hprogress'
      have hfired := (firedSince_noted htally.start_le (.processed id result)).trans (congrArg (· ++ [id]) hsame.fired)
      refine ⟨⟨htally.fire (hsame.fired ▸ hnew) _, hidle.trans h.idle_eq, hlimit.trans h.limit_eq, ?_⟩, pending', ?_⟩
      · rw [hfired]
        exact haccounts
      · rw [hfired]
        exact hprogress'
  · refine ⟨htally, hidle.trans h.idle_eq, hlimit.trans h.limit_eq, ?_⟩
    rw [hsame.fired]
    exact (hends.error cause hcause).1

/-- Settling a result clears it from the books, and always can be done. A result
    that is kept moves to the outputs. -/
theorem Audited.settles (h : Audited plan limit start base (⟨some id, some result, rest⟩ :: rounds) state)
    {dependents : List NodeId} {retention : Retention} (hwiring : plan.wiring id = some (dependents, retention)) :
    ∃ after, (GraphM.settleResult id retention result).runFrom state = (.ok (), after) ∧
      Audited plan limit start base rounds after ∧ state.activity.storage.Relabels after.activity.storage ∧
      after.activity.firedSince start = state.activity.firedSince start ∧
      after.graph = state.graph.settled id result retention := by
  have hretention : (plan.wiring id).map Prod.snd = some retention := by rw [hwiring, Option.map_some]
  cases retention with
  | output =>
    let kept : GraphState Node σ := ⟨state.graph.keep id result, state.activity⟩
    have hfired : (kept.noted (.retained id result)).activity.firedSince start = state.activity.firedSince start :=
      (firedSince_noted h.start_le (.retained id result)).trans (List.append_nil _)
    refine ⟨kept.noted (.retained id result), GraphM.runFrom_settle_output id result state,
      ⟨h.toTally.keep hretention, h.idle_eq, h.limit_eq, ?_⟩, refl_of Storage.Relabels _, hfired, rfl⟩
    rw [hfired]
    exact h.accounts.keep h.not_mem_outputs
  | free =>
    obtain ⟨entry, hentry⟩ := Graph.exists_entry_of_wiring (h.idle_eq ▸ hwiring)
    obtain ⟨activity, hrun, haccounts⟩ := h.accounts.free
    have hquiet := ActivityM.quiet_free result state.activity
    have hrelabels := (ActivityM.relabels_free result state.activity).ok ()
    rw [hrun] at hquiet hrelabels
    let freed : GraphState Node σ := ⟨state.graph, activity⟩
    have hsame : Tally.Same start state freed := .of_quiet h.start_le hquiet rfl
    have htally : Tally plan start (⟨some id, some result, rest⟩ :: rounds) freed := h.toTally.same hsame
    have hfired : (freed.noted (.released id result)).activity.firedSince start = state.activity.firedSince start :=
      ((firedSince_noted htally.start_le (.released id result)).trans (List.append_nil _)).trans hsame.fired
    refine ⟨freed.noted (.released id result), by rw [GraphM.runFrom_settle_free result hentry, hrun],
      ⟨htally.release hretention, h.idle_eq, ?_, ?_⟩, hrelabels rfl, hfired, rfl⟩
    · rw [← h.limit_eq, GraphM.depthLimit, GraphM.depthLimit]
      exact congrArg _ (congrArg (· + 2) hquiet.maxSlots_eq)
    · rw [hfired]
      exact haccounts

/-- So is a result that all its takers have seen. -/
theorem Orderly.settles (h : Orderly plan limit start base (⟨some id, some result, []⟩ :: rounds) state)
    {dependents : List NodeId} {retention : Retention} (hwiring : plan.wiring id = some (dependents, retention)) :
    ∃ after, (GraphM.settleResult id retention result).runFrom state = (.ok (), after) ∧
      Orderly plan limit start base rounds after ∧ state.activity.storage.Relabels after.activity.storage ∧
      after.activity.firedSince start = state.activity.firedSince start ∧ after.graph = state.graph.settled id result retention := by
  obtain ⟨after, hrun, haudited, hrelabels, hfired, hgraph⟩ := h.toAudited.settles hwiring
  obtain ⟨pending, hprogress⟩ := h.progress
  have hentries : after.graph.entries = state.graph.entries := by
    rw [hgraph]
    cases retention <;> rfl
  exact ⟨after, hrun, ⟨haudited, pending, hfired ▸ hprogress.settle.of_entries_eq hentries⟩, hrelabels, hfired, hgraph⟩

section Done

variable (h : Orderly plan limit start base [⟨none, none, []⟩] state) (hacyclic : plan.Acyclic) (hexact : plan.Exact)
include h hacyclic hexact

/-- At the end of a run each node has been done once. The list of those done has
    no repetitions. -/
theorem Orderly.mem_fired_iff (id : NodeId) : id ∈ state.activity.firedSince start ↔ id.index < plan.size := by
  obtain ⟨pending, hprogress⟩ := h.progress
  rw [← h.idle_eq, Graph.size_idle]
  exact ⟨hprogress.lt_size id, hprogress.mem_fired h.idle_eq hexact hacyclic⟩

/-- No operand is held any more, -/
theorem Orderly.held_eq_nil : state.graph.held = [] := by
  obtain ⟨pending, hprogress⟩ := h.progress
  refine List.filterMap_eq_nil_iff.mpr fun entry hmem => ?_
  obtain ⟨index, hindex⟩ := List.mem_iff_getElem?.mp hmem
  rw [Array.getElem?_toList] at hindex
  have hentry : state.graph.entries[(⟨index⟩ : NodeId).index]? = some entry := hindex
  refine hprogress.spent hentry ((h.mem_fired_iff hacyclic hexact _).mpr ?_)
  rw [← h.idle_eq, Graph.size_idle]
  exact (Array.getElem?_eq_some_iff.mp hindex).1

/-- and no literal is still to give its variable. -/
theorem Orderly.waiting_eq_nil : plan.waiting (state.activity.firedSince start) = [] := by
  refine List.eq_nil_iff_forall_not_mem.mpr fun v hmem => ?_
  obtain ⟨id, entry, hnew, hentry, -⟩ := Graph.mem_waiting.mp hmem
  exact hnew ((h.mem_fired_iff hacyclic hexact id).mpr (Array.getElem?_eq_some_iff.mp hentry).1)

/-- What is still in use is what is kept. The rest are slots that were in use
    before the run. -/
theorem Orderly.lends_outputs :
    state.activity.storage.allocator.Lends (Variable.slotsOf (state.graph.outputs.map Prod.snd) ++ base) := by
  have haccounts := h.accounts
  have hinUse : state.inUse [⟨none, none, []⟩] = state.graph.held ++ state.graph.outputs.map Prod.snd := rfl
  rw [Accounts, h.waiting_eq_nil hacyclic hexact, hinUse, h.held_eq_nil hacyclic hexact] at haccounts
  exact haccounts

/-- Each result has been kept or given up, as its node asks. The observer has
    been told of it. -/
theorem Orderly.mem_kept_or_released {id : NodeId} {retention : Retention}
    (hretention : (plan.wiring id).map Prod.snd = some retention) :
    (retention = .output ∧ id ∈ state.activity.keptSince start) ∨ (retention = .free ∧ id ∈ state.activity.releasedSince start) := by
  obtain ⟨wired, hwired, -⟩ := Option.map_eq_some_iff.mp hretention
  obtain ⟨entry, hentry, -⟩ := Option.map_eq_some_iff.mp hwired
  have hfired := (h.mem_fired_iff hacyclic hexact id).mpr (Array.getElem?_eq_some_iff.mp hentry).1
  have hsettled : id ∈ state.activity.keptSince start ++ state.activity.releasedSince start := h.perm.mem_iff.mpr hfired
  rcases List.mem_append.mp hsettled with hkept | hreleased
  · exact .inl ⟨Option.some.inj (hretention.symm.trans (h.retained id hkept)), hkept⟩
  · exact .inr ⟨Option.some.inj (hretention.symm.trans (h.released id hreleased)), hreleased⟩

end Done

end GraphState

end StagedArrays
