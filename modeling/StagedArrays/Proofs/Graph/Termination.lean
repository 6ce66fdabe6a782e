import StagedArrays.Proofs.Graph.Halting

namespace StagedArrays

open Stateful (Moves)

namespace Graph

/-- A graph with further nodes, which hold nothing, and other edges. The nodes
    that were there stay as they are. -/
structure Extends (graph after : Graph Node) : Prop where
  kept : ∀ (index : Nat) (entry : GraphEntry Node), graph.entries[index]? = some entry →
    ∃ other : GraphEntry Node, after.entries[index]? = some other ∧ other.node = entry.node
  fresh : ∀ (index : Nat) (entry : GraphEntry Node), after.entries[index]? = some entry → graph.entries[index]? = none →
    entry.node.held? = none

/-- Further nodes and edges take nothing away from the rounds that held inputs
    came from. -/
theorem Rooted.extend {graph after : Graph Node} (h : graph.Rooted) (hextends : graph.Extends after) : after.Rooted := by
  intro index entry node side held hentry hnode hheld
  cases hold : graph.entries[index]? with
  | none =>
    have hnone := hextends.fresh index entry hentry hold
    rw [hnode] at hnone
    simp [Node.held?, hheld] at hnone
  | some old =>
    obtain ⟨other, hother, hsame⟩ := hextends.kept index old hold
    obtain rfl : other = entry := Option.some.inj (hother.symm.trans hentry)
    refine (h index old node side held hold (hsame.symm.trans hnode) hheld).mono fun index entry hidle => ?_
    rw [getElem?_idle] at hidle
    obtain ⟨earlier, hearlier, rfl⟩ := Option.map_eq_some_iff.mp hidle
    obtain ⟨later, hlater, hnode⟩ := hextends.kept index earlier hearlier
    refine ⟨{ later with node := later.node.idle }, by rw [getElem?_idle, hlater, Option.map_some], ?_⟩
    rw [hnode]

end Graph

instance keeps_isPreorder {σ : Type} (P : σ → Prop) : IsPreorder σ fun before after => P before → P after where
  refl _ h := h
  trans _ _ _ h h' := fun hbefore => h' (h hbefore)

namespace GraphState

variable {σ : Type}

/-- What can become of a graph: it is run and reset, nodes and edges are added,
    and in between anything may be done to what it shares with others. -/
inductive History : GraphState Node σ → Prop
  | built {graph : Graph Node} (hheld : ∀ index, graph.heldBy index = none) (activity : Activity σ) : History ⟨graph, activity⟩
  | run {state : GraphState Node σ} (h : History state) : History (GraphM.run.runFrom state).2
  | reset {state : GraphState Node σ} (h : History state) : History (GraphM.reset.runFrom state).2
  | extended {state : GraphState Node σ} (h : History state) {graph : Graph Node} (hextends : state.graph.Extends graph) :
    History ⟨graph, state.activity⟩
  | outside {state : GraphState Node σ} (h : History state) (activity : Activity σ) : History ⟨state.graph, activity⟩

end GraphState

namespace GraphM

open GraphState (Going Ceased Halts Proceeds)

variable {σ : Type} {state : GraphState Node σ}

/-- To reset a graph is to hold nothing new. -/
theorem moves_reset : Moves (fun before after : GraphState Node σ => before.graph.Rooted → after.graph.Rooted) reset := by
  have hfree (outputs : List (NodeId × Variable)) :
      Moves (fun before after : GraphState Node σ => before.graph.Rooted → after.graph.Rooted) (freeOutputs outputs) := by
    induction outputs with
    | nil => exact .pure _
    | cons output rest ih =>
      have hone : Moves (fun before after : GraphState Node σ => before.graph.Rooted → after.graph.Rooted)
          (onActivity (.free output.2)) := fun _ => id
      exact .bind hone fun _ => ih
  have hreset (id : NodeId) :
      Moves (fun before after : GraphState Node σ => before.graph.Rooted → after.graph.Rooted) (onNode id GraphNode.reset) := by
    intro state h
    cases hentry : state.graph.entries[id.index]? with
    | none =>
      rw [runFrom_onNode_of_none _ hentry]
      exact h
    | some entry =>
      rw [runFrom_reset_node hentry]
      cases entry.node.held? with
      | none => exact h
      | some held =>
        refine h.setNode hentry (Node.idle_idle entry.node) fun found side held hnode hheld => ?_
        have hnone := Node.held?_idle entry.node
        rw [hnode] at hnone
        simp [Node.held?, hheld] at hnone
  intro state h
  rw [reset, Stateful.runFrom_bind, Stateful.runFrom_get]
  exact Moves.bind (hfree _) (fun _ => moves_notifyAll hreset _) ⟨{ state.graph with outputs := [] }, state.activity⟩ h

/-- A run of a rooted graph ends, and one level for each node and one more is as
    deep as notifications go. -/
theorem runWithin_halts (hrooted : state.graph.Rooted) {limit other : GraphState Node σ → Nat}
    (hlimit : ∀ s, s.graph.size = state.graph.size → state.graph.size < limit s)
    (hother : ∀ s, s.graph.size = state.graph.size → state.graph.size < other s) :
    (runWithin other).runFrom state = (runWithin limit).runFrom state ∧
      Halts state.graph.idle state.activity.journal.size ((runWithin limit).runFrom state) := by
  have hnone : state.activity.toldSince state.activity.journal.size = [] := by
    rw [Activity.toldSince, Activity.since, List.drop_eq_nil_of_le (by simp), List.filter_nil]
  have hstart : Going state.graph.idle state.activity.journal.size [] state := by
    refine ⟨⟨rfl, hrooted, Nat.le_refl _, ?_⟩, ?_⟩
    · rw [hnone]
      exact Event.spaced_nil
    · rw [hnone]
      rfl
  have hnotify (leaf : NodeId) (s : GraphState Node σ) (h : Going state.graph.idle state.activity.journal.size [] s) :
      (processWithin (other s) leaf none none).runFrom s = (processWithin (limit s) leaf none none).runFrom s ∧
        Proceeds state.graph.idle state.activity.journal.size [] ((processWithin (limit s) leaf none none).runFrom s) := by
    have hsize : s.graph.size = state.graph.size := by
      rw [← Graph.size_idle, h.idle_eq, Graph.size_idle]
    refine processWithin_proceeds _ _ leaf none none [] s (.nil _) rfl rfl h ?_ ?_
    · rw [Graph.size_idle]
      exact hlimit s hsize
    · rw [Graph.size_idle]
      exact hother s hsize
  obtain ⟨hsame, hleaves⟩ := @notifyAll_proceeds σ _ _ [] (fun leaf => do processWithin (limit (← get)) leaf none none)
    (fun leaf => do processWithin (other (← get)) leaf none none) hnotify state.graph.leaves state hstart
  rw [runWithin, runWithin, Stateful.runFrom_bind, Stateful.runFrom_bind, Stateful.runFrom_get]
  dsimp only
  rw [Stateful.runFrom_bind, Stateful.runFrom_bind, hsame]
  refine ⟨rfl, ?_⟩
  generalize (notifyAll (fun leaf => do processWithin (limit (← get)) leaf none none) state.graph.leaves).runFrom state =
    run at hleaves ⊢
  obtain ⟨failure | ⟨⟩, ran⟩ := run
  · exact ⟨.of_error (hleaves.plain failure rfl), hleaves.ceased⟩
  · have hran := hleaves.ceased
    exact ⟨.ok _, ⟨hran.idle_eq, hran.rooted, hran.start_le, hran.spaced⟩⟩

theorem lt_depthLimit (state : GraphState Node σ) : state.graph.size < depthLimit state :=
  Nat.lt_of_lt_of_le (Nat.lt_succ_self _) (Nat.le_mul_of_pos_right _ (Nat.succ_pos _))

/-- A run of a rooted graph halts. Its nodes are notified no deeper than there
    are nodes. -/
theorem halts_run (hrooted : state.graph.Rooted) :
    Halts state.graph.idle state.activity.journal.size (run.runFrom state) :=
  have hlimit (s : GraphState Node σ) (hsize : s.graph.size = state.graph.size) : state.graph.size < depthLimit s :=
    hsize ▸ lt_depthLimit s
  (runWithin_halts hrooted hlimit hlimit).2

/-- Each held input in a graph that has a history came from some round of it. So
    it came from a founded node. -/
theorem rooted_of_history (h : state.History) : state.graph.Rooted := by
  induction h with
  | built hheld => exact Graph.rooted_of_heldBy hheld
  | run _ ih => exact (halts_run ih).ceased.rooted
  | reset _ ih => exact moves_reset _ ih
  | extended _ hextends ih => exact ih.extend hextends
  | outside _ _ ih => exact ih

/-- Every run ends, whatever the operands and edges are and whatever went
    before: with success or with an error, unless a sum or product of the size
    of a layout overflows, or there is no room for elements that were asked for.
    Notifications go one level deep for each node and one more at most, so that
    it makes no difference if they may go deeper; and no node has another result
    while its last one is under way. -/
theorem run_halts (h : state.History) :
    (∀ depth, state.graph.size < depth → (runWithin fun _ => depth).runFrom state = run.runFrom state) ∧
      (∀ failure, (run.runFrom state).1 = .error failure → failure.Plain) ∧
      Event.Spaced ((run.runFrom state).2.activity.toldSince state.activity.journal.size) := by
  have hrooted := rooted_of_history h
  have hhalts := halts_run hrooted
  refine ⟨fun depth hdepth => ?_, hhalts.plain, hhalts.ceased.spaced⟩
  rw [run_eq_runWithin]
  exact (runWithin_halts hrooted (fun s hsize => hsize ▸ lt_depthLimit s) fun _ _ => hdepth).1

/-- A number and two sums that are operands of each other; one of them is told
    of its own result as well, and the other of the number twice. -/
def entwined : GraphState Node Unit where
  graph :=
    { entries := #[
        { node := .literal (.unmanaged (.constant (.i32 3))), dependents := [⟨1⟩, ⟨2⟩, ⟨2⟩] },
        { node := .binary { op := .add, lhs := ⟨0⟩, rhs := ⟨2⟩ }, dependents := [⟨2⟩, ⟨1⟩] },
        { node := .binary { op := .add, lhs := ⟨1⟩, rhs := ⟨0⟩ }, dependents := [⟨1⟩] }] }
  activity := { storage := ⟨{ maxSlots := 4 }, { contexts := [.compute], client := () }⟩ }

theorem history_entwined : entwined.History := by
  refine .built (fun index => ?_) _
  rcases index with _ | _ | _ | index <;> rfl

/-- Also with the operands that its first run leaves behind a second one
    ends. -/
theorem run_halts_entwined : (run.runFrom entwined).2.History ∧
    (∀ depth, (run.runFrom entwined).2.graph.size < depth →
      (runWithin fun _ => depth).runFrom (run.runFrom entwined).2 = run.runFrom (run.runFrom entwined).2) ∧
    (∀ failure, (run.runFrom (run.runFrom entwined).2).1 = .error failure → failure.Plain) ∧
    Event.Spaced ((run.runFrom (run.runFrom entwined).2).2.activity.toldSince (run.runFrom entwined).2.activity.journal.size) :=
  ⟨history_entwined.run, run_halts history_entwined.run⟩

/-- A sum of no numbers, of a shape that no packed layout can have. It has no
    elements, but its extents cannot be multiplied. -/
def oversized : GraphState Node Unit where
  graph :=
    { entries := #[
        { node := .literal (.unmanaged ⟨.i32, ⟨[0, 2 ^ 33, 2 ^ 33], [0, 0, 0]⟩, .host ⟨0⟩ 0⟩), dependents := [⟨1⟩, ⟨1⟩] },
        { node := .binary { op := .add, lhs := ⟨0⟩, rhs := ⟨0⟩ } }] }
  activity := { storage := ⟨{ maxSlots := 0 }, { heap := ⟨#[.empty .i32]⟩, contexts := [.compute], client := () }⟩ }

/-- Its run ends neither with success nor with an error. The size of the packed
    layout overflows before any storage is asked for. -/
theorem run_faults_oversized : oversized.History ∧ (run.runFrom oversized).1 = .error (.fault .multiplyOverflow) := by
  refine ⟨.built (fun index => ?_) _, by decide +kernel⟩
  rcases index with _ | _ | index <;> rfl

end GraphM

end StagedArrays
