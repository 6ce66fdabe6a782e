import StagedArrays.Proofs.Graph.Leaks

namespace StagedArrays

open Stateful (Ends)

namespace Activity

variable {σ : Type}

/-- The nodes whose results have been passed on from a point of the journal
    on. -/
def firedSince (activity : Activity σ) (start : Nat) : List NodeId := (activity.since start).filterMap Event.processed?

/-- The nodes whose results have been given up from a point of the journal
    on. -/
def releasedSince (activity : Activity σ) (start : Nat) : List NodeId := (activity.since start).filterMap Event.released?

theorem since_size (activity : Activity σ) : activity.since activity.journal.size = [] :=
  List.drop_eq_nil_of_le (Nat.le_of_eq Array.length_toList)

/-- At the start of a run no node has passed a result on. -/
@[simp]
theorem firedSince_size (activity : Activity σ) : activity.firedSince activity.journal.size = [] := by
  rw [firedSince, since_size]
  rfl

end Activity

namespace GraphState

variable {σ : Type} {state after : GraphState Node σ} {plan : Graph Node} {start : Nat} {rounds : List Round}
  {id : NodeId} {source : Option NodeId} {input : Option Variable} {rest rest' : List NodeId} {result : Variable}

/-- Every result that was passed on is on its way, kept, or given up, and no
    node has had two. -/
structure Tally (plan : Graph Node) (start : Nat) (rounds : List Round) (state : GraphState Node σ) : Prop where
  start_le : start ≤ state.activity.journal.size
  nodup : (state.activity.firedSince start).Nodup
  perm : (rounds.filterMap Round.source ++ (state.activity.keptSince start ++ state.activity.releasedSince start)).Perm
    (state.activity.firedSince start)
  retained : ∀ id ∈ state.activity.keptSince start, (plan.wiring id).map Prod.snd = some .output
  released : ∀ id ∈ state.activity.releasedSince start, (plan.wiring id).map Prod.snd = some .free
  outputs : state.graph.outputs.map Prod.fst = (state.activity.keptSince start).reverse

/-- Nothing has come of it yet. The journal may have grown by events about
    storage. -/
structure Tally.Same (start : Nat) (state after : GraphState Node σ) : Prop where
  size_le : state.activity.journal.size ≤ after.activity.journal.size
  fired : after.activity.firedSince start = state.activity.firedSince start
  kept : after.activity.keptSince start = state.activity.keptSince start
  released : after.activity.releasedSince start = state.activity.releasedSince start
  outputs : after.graph.outputs = state.graph.outputs

/-- What happens to storage alone adds nothing to the count of results. -/
theorem Tally.Same.of_quiet (hstart : start ≤ state.activity.journal.size) (hquiet : state.activity.Quiet after.activity)
    (houtputs : after.graph.outputs = state.graph.outputs) : Tally.Same start state after := by
  refine ⟨hquiet.size_le, ?_, ?_, ?_, houtputs⟩
  · exact hquiet.since_filterMap hstart fun event hevent => by cases event <;> first | rfl | cases hevent
  · exact hquiet.since_filterMap hstart fun event hevent => by cases event <;> first | rfl | cases hevent
  · exact hquiet.since_filterMap hstart fun event hevent => by cases event <;> first | rfl | cases hevent

/-- Before a run there is nothing to account for. The graph has no outputs when
    a run begins. -/
theorem tally_start (plan : Graph Node) (leaves : List NodeId) (houtputs : state.graph.outputs = []) :
    Tally plan state.activity.journal.size [⟨none, none, leaves⟩] state := by
  have hkept : state.activity.keptSince state.activity.journal.size = [] := by
    rw [Activity.keptSince, Activity.since_size]
    rfl
  have hreleased : state.activity.releasedSince state.activity.journal.size = [] := by
    rw [Activity.releasedSince, Activity.since_size]
    rfl
  refine ⟨Nat.le_refl _, ?_, ?_, ?_, ?_, ?_⟩
  · simp
  · simp [hkept, hreleased]
  · simp [hkept]
  · simp [hreleased]
  · simp [hkept, houtputs]

/-- A count stays right while nothing comes of it. So it is not disturbed by
    what a node does to storage. -/
theorem Tally.same (h : Tally plan start rounds state) (hsame : Tally.Same start state after) : Tally plan start rounds after := by
  obtain ⟨hsize, hfired, hkept, hreleased, houtputs⟩ := hsame
  refine ⟨Nat.le_trans h.start_le hsize, ?_, ?_, ?_, ?_, ?_⟩
  · rw [hfired]
    exact h.nodup
  · rw [hfired, hkept, hreleased]
    exact h.perm
  · rw [hkept]
    exact h.retained
  · rw [hreleased]
    exact h.released
  · rw [houtputs, hkept]
    exact h.outputs

theorem Tally.skip (h : Tally plan start (⟨source, input, rest⟩ :: rounds) state) :
    Tally plan start (⟨source, input, rest'⟩ :: rounds) state :=
  ⟨h.start_le, h.nodup, h.perm, h.retained, h.released, h.outputs⟩

/-- The sources of the rounds under way. -/
theorem sources_cons (id : NodeId) (input : Option Variable) (rest : List NodeId) (rounds : List Round) :
    (⟨some id, input, rest⟩ :: rounds : List Round).filterMap Round.source = id :: rounds.filterMap Round.source := rfl

/-- No node has two outputs, and each of those that have one has passed it
    on. -/
theorem Tally.nodup_keys (h : Tally plan start rounds state) : (state.graph.outputs.map Prod.fst).Nodup := by
  have hsettled := (List.nodup_append.mp (h.perm.nodup_iff.mpr h.nodup)).2.1
  rw [h.outputs, (List.reverse_perm _).nodup_iff]
  exact (List.nodup_append.mp hsettled).1

/-- A result that has been kept comes from a node that has fired. Nothing else
    puts a result among the outputs. -/
theorem Tally.mem_fired_of_mem_outputs (h : Tally plan start rounds state) {output : NodeId × Variable}
    (hmem : output ∈ state.graph.outputs) : output.1 ∈ state.activity.firedSince start := by
  have hkept : output.1 ∈ state.activity.keptSince start := List.mem_reverse.mp (h.outputs ▸ List.mem_map_of_mem hmem)
  exact h.perm.mem_iff.mp (List.mem_append_right _ (List.mem_append_left _ hkept))

section Noted

variable (hstart : start ≤ state.activity.journal.size) (event : Event)
include hstart

/-- A further event adds at most one node to those that have fired. It comes
    last. -/
theorem firedSince_noted : (state.noted event).activity.firedSince start =
    state.activity.firedSince start ++ event.processed?.toList := by
  rw [Activity.firedSince, since_noted hstart, List.filterMap_append]
  cases event <;> rfl

/-- The same for those whose result was given up. The two kinds of events are
    told apart. -/
theorem releasedSince_noted : (state.noted event).activity.releasedSince start =
    state.activity.releasedSince start ++ event.released?.toList := by
  rw [Activity.releasedSince, since_noted hstart, List.filterMap_append]
  cases event <;> rfl

end Noted

/-- A new result is on its way. The node that it comes from has not fired
    before. -/
theorem Tally.fire (h : Tally plan start rounds state) (hnew : id ∉ state.activity.firedSince start) (dependents : List NodeId) :
    Tally plan start (⟨some id, some result, dependents⟩ :: rounds) (state.noted (.processed id result)) := by
  have hkept : (state.noted (.processed id result)).activity.keptSince start = state.activity.keptSince start :=
    (keptSince_noted h.start_le _).trans (List.append_nil _)
  have hreleased : (state.noted (.processed id result)).activity.releasedSince start = state.activity.releasedSince start :=
    (releasedSince_noted h.start_le _).trans (List.append_nil _)
  have hfired : (state.activity.firedSince start ++ [id]).Perm (id :: state.activity.firedSince start) :=
    List.perm_append_singleton id _
  have hfired' : (state.noted (.processed id result)).activity.firedSince start = state.activity.firedSince start ++ [id] :=
    firedSince_noted h.start_le _
  refine ⟨start_le_noted h.start_le _, ?_, ?_, hkept ▸ h.retained, hreleased ▸ h.released, hkept ▸ h.outputs⟩
  · rw [hfired', hfired.nodup_iff]
    exact List.nodup_cons.mpr ⟨hnew, h.nodup⟩
  · rw [hfired', hkept, hreleased]
    exact (h.perm.cons id).trans hfired.symm

/-- A result on its way has not been kept. -/
theorem Tally.not_mem_outputs (h : Tally plan start (⟨some id, some result, rest⟩ :: rounds) state) :
    id ∉ state.graph.outputs.map Prod.fst := by
  rw [h.outputs, List.mem_reverse]
  intro hmem
  exact (List.nodup_append.mp (h.perm.nodup_iff.mpr h.nodup)).2.2 id List.mem_cons_self id (List.mem_append_left _ hmem) rfl

/-- A result that is kept is no longer on its way. It is added to the
    outputs. -/
theorem Tally.keep (h : Tally plan start (⟨some id, some result, rest⟩ :: rounds) state)
    (hretention : (plan.wiring id).map Prod.snd = some .output) :
    Tally plan start rounds ((⟨state.graph.keep id result, state.activity⟩ : GraphState Node σ).noted (.retained id result)) := by
  let kept : GraphState Node σ := ⟨state.graph.keep id result, state.activity⟩
  have hstart : start ≤ kept.activity.journal.size := h.start_le
  have hkept : (kept.noted (.retained id result)).activity.keptSince start = state.activity.keptSince start ++ [id] :=
    keptSince_noted hstart _
  have hfired : (kept.noted (.retained id result)).activity.firedSince start = state.activity.firedSince start :=
    (firedSince_noted hstart _).trans (List.append_nil _)
  have hreleased : (kept.noted (.retained id result)).activity.releasedSince start = state.activity.releasedSince start :=
    (releasedSince_noted hstart _).trans (List.append_nil _)
  refine ⟨start_le_noted hstart _, hfired ▸ h.nodup, ?_, ?_, hreleased ▸ h.released, ?_⟩
  · rw [hfired, hkept, hreleased]
    refine List.Perm.trans (List.perm_iff_count.mpr fun other => ?_) h.perm
    simp only [sources_cons, List.count_append, List.count_cons, List.count_nil]
    omega
  · rw [hkept]
    intro other hmem
    rcases List.mem_append.mp hmem with hmem | hmem
    · exact h.retained other hmem
    · rw [List.mem_singleton.mp hmem]
      exact hretention
  · have hkeys : (state.graph.keep id result).outputs.map Prod.fst = id :: state.graph.outputs.map Prod.fst := by
      rw [Graph.keep_of_not_mem h.not_mem_outputs]
      rfl
    rw [hkept, List.reverse_append, ← h.outputs]
    exact hkeys

/-- A result that is given up is no longer on its way. It is added to what has
    been released. -/
theorem Tally.release (h : Tally plan start (⟨some id, some result, rest⟩ :: rounds) state)
    (hretention : (plan.wiring id).map Prod.snd = some .free) :
    Tally plan start rounds (state.noted (.released id result)) := by
  have hfired : (state.noted (.released id result)).activity.firedSince start = state.activity.firedSince start :=
    (firedSince_noted h.start_le _).trans (List.append_nil _)
  have hkept : (state.noted (.released id result)).activity.keptSince start = state.activity.keptSince start :=
    (keptSince_noted h.start_le _).trans (List.append_nil _)
  have hreleased : (state.noted (.released id result)).activity.releasedSince start =
      state.activity.releasedSince start ++ [id] := releasedSince_noted h.start_le _
  refine ⟨start_le_noted h.start_le _, hfired ▸ h.nodup, ?_, hkept ▸ h.retained, ?_, hkept ▸ h.outputs⟩
  · rw [hfired, hkept, hreleased]
    refine List.Perm.trans (List.perm_iff_count.mpr fun other => ?_) h.perm
    simp only [sources_cons, List.count_append, List.count_cons, List.count_nil]
    omega
  · rw [hreleased]
    intro other hmem
    rcases List.mem_append.mp hmem with hmem | hmem
    · exact h.released other hmem
    · rw [List.mem_singleton.mp hmem]
      exact hretention

end GraphState

end StagedArrays
