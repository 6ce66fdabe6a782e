import StagedArrays.Proofs.Graph.Reset

namespace StagedArrays

open Stateful (Ends)

namespace Activity

variable {σ : Type}

/-- The nodes whose results have been kept from a point of the journal on, each
    as often as it was. -/
def keptSince (activity : Activity σ) (start : Nat) : List NodeId := (activity.since start).filterMap Event.retained?

end Activity

namespace GraphState

variable {σ : Type} {state : GraphState Node σ} {plan : Graph Node} {limit start : Nat} {base : List Nat} {rounds : List Round}
  {id : NodeId} {source : Option NodeId} {input : Option Variable} {rest rest' : List NodeId} {result : Variable}

/-- A further event adds at most one node to those whose result was kept. It
    comes last. -/
theorem keptSince_noted (hstart : start ≤ state.activity.journal.size) (event : Event) :
    (state.noted event).activity.keptSince start = state.activity.keptSince start ++ event.retained?.toList := by
  rw [Activity.keptSince, since_noted hstart, List.filterMap_append]
  cases event <;> rfl

/-- A graph at work whose accounts are right as long as no node has had a result
    kept twice. -/
structure Accounted (plan : Graph Node) (limit start : Nat) (base : List Nat) (rounds : List Round)
    (state : GraphState Node σ) : Prop where
  idle_eq : state.graph.idle = plan
  limit_eq : GraphM.depthLimit state = limit
  start_le : start ≤ state.activity.journal.size
  outputs : ∀ output ∈ state.graph.outputs, output.1 ∈ state.activity.keptSince start
  accounts : (state.activity.keptSince start).Nodup → Accounts base rounds state

theorem Accounted.skip (h : Accounted plan limit start base (⟨source, input, rest⟩ :: rounds) state) :
    Accounted plan limit start base (⟨source, input, rest'⟩ :: rounds) state :=
  ⟨h.idle_eq, h.limit_eq, h.start_le, h.outputs, h.accounts⟩

/-- Only a step that keeps a result can upset the accounts. A result that is
    kept a second time takes the place of the first, whose slot is then lost. -/
theorem Accounted.of_quiet {after : GraphState Node σ} {others : List Round} (h : Accounted plan limit start base rounds state)
    (hquiet : state.activity.Quiet after.activity) (hidle : after.graph.idle = state.graph.idle)
    (houtputs : after.graph.outputs = state.graph.outputs)
    (haccounts : (state.activity.keptSince start).Nodup → Accounts base others after) :
    Accounted plan limit start base others after := by
  have hkept : after.activity.keptSince start = state.activity.keptSince start :=
    hquiet.since_filterMap h.start_le fun event hevent => by cases event <;> first | rfl | cases hevent
  refine ⟨hidle.trans h.idle_eq, ?_, Nat.le_trans h.start_le hquiet.size_le, ?_, ?_⟩
  · have hsize : after.graph.size = state.graph.size := by
      rw [← Graph.size_idle, hidle, Graph.size_idle]
    rw [← h.limit_eq, GraphM.depthLimit, GraphM.depthLimit, hsize, hquiet.maxSlots_eq]
  · rw [houtputs, hkept]
    exact h.outputs
  · rw [hkept]
    exact haccounts

/-- An event that keeps nothing leaves the accounts as they are. -/
theorem Accounted.noted (h : Accounted plan limit start base rounds state) {event : Event} (hevent : event.retained? = none) :
    Accounted plan limit start base rounds (state.noted event) := by
  have hkept : (state.noted event).activity.keptSince start = state.activity.keptSince start := by
    rw [keptSince_noted h.start_le, hevent]
    exact List.append_nil _
  refine ⟨h.idle_eq, h.limit_eq, ?_, ?_, ?_⟩
  · exact Nat.le_trans h.start_le (by simp [GraphState.noted])
  · rw [hkept]
    exact h.outputs
  · rw [hkept]
    exact h.accounts

/-- The accounts stay right while a node receives an input. A result of its own
    lies in a slot that was free; what the node was holding is given back or
    still held. -/
theorem Accounted.receives (h : Accounted plan limit start base (⟨source, input, id :: rest⟩ :: rounds) state)
    (hplan : plan.Unmanaged) (dependents : List NodeId) :
    Ends (fun result after => match result with
        | none => Accounted plan limit start base (⟨source, input, rest⟩ :: rounds) after
        | some result => Accounted plan limit start base
            (⟨some id, some result, dependents⟩ :: ⟨source, input, rest⟩ :: rounds) (after.noted (.processed id result)))
      (fun _ after => Accounted plan limit start base (⟨source, input, rest⟩ :: rounds) after) True
      ((GraphM.onNode id (GraphNode.process source input)).runFrom state) := by
  have hunmanaged : state.graph.Unmanaged := Graph.unmanaged_of_idle (h.idle_eq ▸ hplan)
  have hbase (entry) (hentry : state.graph.entries[id.index]? = some entry) :
      base.Perm (Variable.slotsOf entry.node.fixed?.toList ++ base) := by
    rw [slotsOf_literal hunmanaged hentry]
    exact .refl _
  obtain ⟨hquiet, hidle, houtputs⟩ := GraphM.process_keeps id source input state
  refine ⟨fun result hresult => ?_, fun cause hcause => ?_, fun _ _ => trivial⟩
  · have haccounts := fun hnodup => ((h.accounts hnodup).receives hbase dependents).ok result hresult
    cases result with
    | none => exact h.of_quiet hquiet hidle houtputs haccounts
    | some result => exact (h.of_quiet hquiet hidle houtputs haccounts).noted rfl
  · exact h.of_quiet hquiet hidle houtputs fun hnodup =>
      ((h.accounts hnodup).receives hbase dependents).error cause hcause

/-- The accounts stay right while a result is settled, unless it is kept for a
    node that has one kept already. That is the one way to lose a slot. -/
theorem Accounted.settles (h : Accounted plan limit start base (⟨some id, some result, rest⟩ :: rounds) state)
    {dependents : List NodeId} {retention : Retention} (hwiring : plan.wiring id = some (dependents, retention)) :
    Ends (fun _ after => Accounted plan limit start base rounds after) (fun _ after => Accounted plan limit start base rounds after)
      True ((GraphM.settleResult id retention result).runFrom state) := by
  cases retention with
  | output =>
    rw [GraphM.runFrom_settle_output]
    let kept : GraphState Node σ := ⟨state.graph.keep id result, state.activity⟩
    have hkept : (kept.noted (.retained id result)).activity.keptSince start = state.activity.keptSince start ++ [id] :=
      keptSince_noted h.start_le _
    refine .of_ok ⟨h.idle_eq, h.limit_eq, Nat.le_trans h.start_le (by simp [GraphState.noted]), ?_, ?_⟩
    · rintro output hmem
      rw [hkept]
      rcases List.mem_cons.mp hmem with rfl | hmem
      · exact List.mem_append_right _ List.mem_cons_self
      · exact List.mem_append_left _ (h.outputs output (List.mem_filter.mp hmem).1)
    · intro hnodup
      rw [hkept, List.nodup_append] at hnodup
      refine (h.accounts hnodup.1).keep fun hmem => ?_
      obtain ⟨output, houtput, rfl⟩ := List.mem_map.mp hmem
      exact hnodup.2.2 _ (h.outputs output houtput) _ List.mem_cons_self rfl
  | free =>
    obtain ⟨entry, hentry⟩ := Graph.exists_entry_of_wiring (h.idle_eq ▸ hwiring)
    have hquiet := ActivityM.quiet_free result state.activity
    have haccounts := fun hnodup => (h.accounts hnodup).free
    rw [GraphM.runFrom_settle_free result hentry]
    generalize (ActivityM.free result).runFrom state.activity = run at hquiet haccounts ⊢
    obtain ⟨(cause | fault) | ⟨⟩, activity⟩ := run
    · refine .of_error (h.of_quiet hquiet rfl rfl fun hnodup => ?_)
      obtain ⟨_, hrun, -⟩ := haccounts hnodup
      cases hrun
    · exact .of_fault trivial
    · have hafter : Accounted plan limit start base rounds (⟨state.graph, activity⟩ : GraphState Node σ) := by
        refine h.of_quiet hquiet rfl rfl fun hnodup => ?_
        obtain ⟨_, hrun, haccounts⟩ := haccounts hnodup
        cases hrun
        exact haccounts
      exact .of_ok (hafter.noted rfl)

/-- The invariant behind the statement about leaks: both kinds of steps keep the
    accounts right, whether they succeed or fail. -/
theorem accounted_invariant (hplan : plan.Unmanaged) :
    GraphM.Invariant plan.wiring limit (fun rounds (state : GraphState Node σ) => Accounted plan limit start base rounds state)
      (fun _ rounds state => Accounted plan limit start base rounds state) True where
  wired h := by rw [← h.idle_eq, Graph.wiring_idle]
  limited h := h.limit_eq
  bounded _ _ := trivial
  receives h := h.receives hplan _
  settles h hwiring := h.settles hwiring
  settles_failing h hwiring := h.settles hwiring
  failing_skip _ h := h.skip

end GraphState

namespace GraphM

variable {σ : Type} {before ran : GraphState Node σ} {outcome : Except (Failure GraphError) (List (NodeId × Variable))}

/-- What a run leaves in use, if no node has had a result kept twice. It is what
    was in use before, the outputs, and what nodes still hold. -/
theorem accounts_of_run {base : List Nat} (hidle : before.graph.idle = before.graph) (hunmanaged : before.graph.Unmanaged)
    (hbase : before.activity.storage.allocator.Lends base) (hrun : run.runFrom before = (outcome, ran))
    (hfault : ∀ fault, outcome ≠ .error (.fault fault))
    (hkept : (ran.activity.keptSince before.activity.journal.size).Nodup) :
    ran.graph.idle = before.graph ∧ ran.activity.storage.allocator.Lends
      (Variable.slotsOf ((outcome.toOption.getD []).map Prod.snd) ++ (Variable.slotsOf (ran.inUse []) ++ base)) := by
  have houtputs : before.graph.outputs = [] := by rw [← hidle]; rfl
  have hempty : before.inUse [⟨none, none, before.graph.leaves⟩] = [] := by
    rw [GraphState.inUse, Graph.kept, houtputs, ← hidle, Graph.held_idle]
    rfl
  have hstart : GraphState.Accounted before.graph (depthLimit before) before.activity.journal.size base
      [⟨none, none, before.graph.leaves⟩] before := by
    refine ⟨hidle, rfl, Nat.le_refl _, ?_, fun _ => ?_⟩
    · rw [houtputs]
      exact List.forall_mem_nil _
    · rw [GraphState.Accounts, hempty]
      exact hbase
  have hends := (GraphState.accounted_invariant hunmanaged).run_ends hstart
  rw [hrun] at hends
  rcases outcome with (cause | fault) | outputs
  · have hend := hends.error cause rfl
    exact ⟨hend.idle_eq, hend.accounts hkept⟩
  · exact (hfault fault rfl).elim
  · obtain ⟨ended, hend, rfl, rfl⟩ := hends.ok outputs rfl
    refine ⟨hend.idle_eq, (hend.accounts hkept).perm ?_⟩
    have hperm : (ended.inUse [⟨none, none, []⟩]).Perm
        (ended.graph.outputs.map Prod.snd ++ (ended.handOver.inUse [])) := by
      have hrest : ended.handOver.inUse [] = ended.graph.held := List.append_nil _
      rw [hrest]
      exact List.perm_append_comm
    have hslots := hperm.flatMap_right Variable.slots
    rw [List.flatMap_append] at hslots
    rw [← List.append_assoc]
    exact hslots.append_right base

/-- Every slot is given back by the end of a cycle of running a graph, giving
    back the outputs in any order, and resetting the graph, whether or not the
    run fails; only where a run keeps the result of a node that has been kept
    already does the earlier one stay. -/
theorem cycle_returns_slots (hidle : before.graph.idle = before.graph) (hunmanaged : before.graph.Unmanaged)
    (hrun : run.runFrom before = (outcome, ran)) (hfault : ∀ fault, outcome ≠ .error (.fault fault))
    (hkept : (ran.activity.keptSince before.activity.journal.size).Nodup) {outputs : List (NodeId × Variable)}
    (houtputs : outputs.Perm (outcome.toOption.getD [])) :
    ∃ freed after, (freeOutputs outputs).runFrom ran = (.ok (), freed) ∧ reset.runFrom freed = (.ok (), after) ∧
      after.graph = before.graph ∧
      ∀ index, after.activity.storage.allocator.isLive index = before.activity.storage.allocator.isLive index := by
  obtain ⟨base, hbase⟩ := before.activity.storage.allocator.exists_lends
  obtain ⟨hgraph, hlends⟩ := accounts_of_run hidle hunmanaged hbase hrun hfault hkept
  have hlends' := hlends.perm (((houtputs.symm.map Prod.snd).flatMap_right Variable.slots).append_right _)
  obtain ⟨freed, hfree, hfreed⟩ := freeOutputs_lends outputs hlends'
  let between : GraphState Node σ := ⟨ran.graph, freed⟩
  have hbetween : between.activity.storage.allocator.Lends (Variable.slotsOf (between.inUse []) ++ base) := hfreed
  obtain ⟨activity, hreset, hafter⟩ := reset_lends hbetween
  exact ⟨_, _, hfree, hreset, hgraph, hbase.isLive_eq hafter⟩

/-- A graph that adds a number to itself and keeps the sum. The sum is told of
    the number so many times. -/
def doubling (times : Nat) : GraphState Node Unit where
  graph :=
    { entries := #[
        { node := .literal (.unmanaged (.constant (.i32 3))), dependents := List.replicate times ⟨1⟩ },
        { node := .binary { op := .add, lhs := ⟨0⟩, rhs := ⟨0⟩ }, retention := .output }] }
  activity := { storage := ⟨{ maxSlots := 8 }, { contexts := [.compute], client := () }⟩ }

/-- Told twice the sum is kept once, and its slot is given back. So the
    condition is met by a node with one operand on both sides. -/
theorem cycle_returns_slots_doubling :
    ((run.runFrom (doubling 2)).2.activity.keptSince 0).Nodup ∧
      ∃ freed after, (freeOutputs ((run.runFrom (doubling 2)).1.toOption.getD [])).runFrom (run.runFrom (doubling 2)).2 =
          (.ok (), freed) ∧
        reset.runFrom freed = (.ok (), after) ∧ after.graph = (doubling 2).graph ∧
        ∀ index, after.activity.storage.allocator.isLive index = (doubling 2).activity.storage.allocator.isLive index := by
  have hkept : ((run.runFrom (doubling 2)).2.activity.keptSince 0).Nodup := by decide +kernel
  have hok : (run.runFrom (doubling 2)).1.toOption.isSome = true := by decide +kernel
  have hidle : (doubling 2).graph.idle = (doubling 2).graph := by simp [doubling, Graph.idle, Node.idle]
  have hunmanaged : (doubling 2).graph.Unmanaged := by
    intro index entry value hentry hnode
    have hmem := List.mem_of_getElem? ((Array.getElem?_toList ..).trans hentry)
    simp only [doubling, List.mem_cons, List.not_mem_nil, or_false] at hmem
    rcases hmem with rfl | rfl
    · cases hnode
      rfl
    · cases hnode
  have hrun : run.runFrom (doubling 2) = ((run.runFrom (doubling 2)).1, (run.runFrom (doubling 2)).2) := rfl
  have hfault : ∀ fault, (run.runFrom (doubling 2)).1 ≠ .error (.fault fault) := by
    intro fault heq
    rw [heq] at hok
    cases hok
  exact ⟨hkept, cycle_returns_slots hidle hunmanaged hrun hfault hkept (.refl _)⟩

/-- Told four times the sum is kept twice, and the slot of the first is never
    given back. -/
theorem cycle_leaks_doubling :
    (doubling 4).activity.storage.allocator.liveSlots = 0 ∧
      ((do
        freeOutputs (← run)
        reset : GraphM Node Unit Unit).runFrom (doubling 4)).1.toOption = some () ∧
      ((do
        freeOutputs (← run)
        reset : GraphM Node Unit Unit).runFrom (doubling 4)).2.activity.storage.allocator.liveSlots = 1 := by
  decide +kernel

end GraphM

end StagedArrays
