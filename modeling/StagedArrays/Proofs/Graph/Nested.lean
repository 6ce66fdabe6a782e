import StagedArrays.Proofs.Graph.Course

namespace StagedArrays

open Stateful (Moves)

namespace Activity

variable {σ : Type} {activity after : Activity σ}

/-- What the observer of the nodes has been told. Events about storage are for
    the observer of the allocator. -/
def observed (activity : Activity σ) : List Event := activity.journal.toList.filter fun event => !event.onStorage

/-- The observer is told nothing of what happens to storage. -/
theorem Quiet.observed_eq (h : activity.Quiet after) : after.observed = activity.observed := by
  obtain ⟨-, events, heq, hquiet⟩ := h
  have hnone : events.filter (fun event => !event.onStorage) = [] :=
    List.filter_eq_nil_iff.mpr fun event hmem => by simp [hquiet event hmem]
  rw [observed, observed, heq, List.filter_append, hnone, List.append_nil]

end Activity

namespace GraphNode

/-- The observer is out of reach for the nodes. All they enter into the journal
    is what they do to storage. -/
structure Unobserving (ν σ : Type) [GraphNode ν] : Prop where
  process : ∀ source input, Moves (fun before after : NodeState ν σ => after.activity.observed = before.activity.observed)
    (GraphNode.process source input)
  complete : ∀ result, Moves (fun before after : NodeState ν σ => after.activity.observed = before.activity.observed)
    (GraphNode.complete result)

end GraphNode

/-- None of the nodes there are has access to the observer. The general results
    hold for every type of node with this property. -/
theorem Node.unobserving (σ : Type) : GraphNode.Unobserving Node σ where
  process source input state := by
    obtain ⟨node, activity⟩ := state
    cases node with
    | literal value => cases input <;> rfl
    | binary node =>
      simp only [GraphNode.process, Stateful.runFrom_bind, NodeM.runFrom_node, Node.onBinary, Stateful.runFrom_focus,
        BinaryNode.runFrom_receive]
      cases node.reaction source input with
      | refuse cause => rfl
      | give value => rfl
      | hold found side operand =>
        have hquiet := BinaryNode.quiet_hold operand activity
        dsimp only
        generalize (BinaryNode.hold operand).runFrom activity = run at hquiet ⊢
        obtain ⟨failure | held, after⟩ := run <;> exact hquiet.observed_eq
      | combine found side held operand => exact (BinaryNode.quiet_combine found.op side held operand activity).observed_eq
  complete result state := (ActivityM.quiet_free result state.activity).observed_eq

namespace RunStep

variable {ν σ : Type} [GraphNode ν] {before after : GraphState ν σ} {step : RunStep} {steps : List RunStep}

omit [GraphNode ν] in
/-- A node that leaves the observer alone does so wherever in a graph it
    stands. -/
theorem observed_onNode {α : Type} {action : NodeM ν σ α}
    (h : Moves (fun before after : NodeState ν σ => after.activity.observed = before.activity.observed) action) (id : NodeId)
    (state : GraphState ν σ) :
    ((GraphM.onNode id action).runFrom state).2.activity.observed = state.activity.observed := by
  rw [GraphM.onNode, Stateful.runFrom_bind, Stateful.runFrom_get]
  dsimp only
  split
  · rfl
  · next entry hentry => exact h ⟨entry.node, state.activity⟩

/-- The observer is told of a step just what it has to be. A node that processes
    a value tells nothing by itself. -/
theorem Leads.observed_eq (h : step.Leads before after) (hunobserving : GraphNode.Unobserving ν σ) :
    after.activity.observed = before.activity.observed ++ step.told?.toList := by
  have hnoted (event : Event) (hevent : event.onStorage = false) (state : GraphState ν σ) :
      (state.noted event).activity.observed = state.activity.observed ++ [event] := by
    simp [Activity.observed, GraphState.noted, hevent]
  cases step with
  | ask id source input answer =>
    have hsame := observed_onNode (hunobserving.process source input) id before
    rw [show (GraphM.onNode id _).runFrom before = _ from h] at hsame
    exact hsame.trans (List.append_nil _).symm
  | complete id result outcome =>
    have hsame := observed_onNode (hunobserving.complete result) id before
    rw [show (GraphM.onNode id _).runFrom before = _ from h] at hsame
    exact hsame.trans (List.append_nil _).symm
  | pass id result =>
    obtain rfl := h
    exact hnoted _ rfl before
  | release id result =>
    obtain rfl := h
    exact hnoted _ rfl before
  | keep id result =>
    obtain rfl := h
    exact hnoted _ rfl _

/-- What the observer is told is what the steps of a run tell, in their order,
    after all that it was told before. -/
theorem Path.observed_eq (h : Path steps before after) (hunobserving : GraphNode.Unobserving ν σ) :
    after.activity.observed = before.activity.observed ++ steps.filterMap told? := by
  induction h with
  | nil => exact (List.append_nil _).symm
  | @cons step steps before between after hstep _ ih =>
    rw [ih, hstep.observed_eq hunobserving, List.append_assoc]
    cases htold : step.told? with
    | none => rw [List.filterMap_cons_none htold, Option.toList_none, List.nil_append]
    | some event => rw [List.filterMap_cons_some htold, Option.toList_some, List.singleton_append]

end RunStep

/-- What the observer is told when a result is settled. It is the counterpart of
    the event that the result was announced by. -/
def Retention.closingEvent (id : NodeId) (result : Variable) : Retention → Event
  | .free => .released id result
  | .output => .retained id result

/-- Events that are well nested. The nodes are visited in turn, up to the first
    that fails: between the word that a node has a result and the word that the
    result is settled, its dependents are visited in the same way. -/
inductive Nested (wiring : NodeId → Option (List NodeId × Retention)) : List NodeId → List Event → (finished : Bool) → Prop
  | done : Nested wiring [] [] true
  | refused {id rest} : Nested wiring (id :: rest) [] false
  | absorbed {id rest events finished} (hrest : Nested wiring rest events finished) :
      Nested wiring (id :: rest) events finished
  | passed {id rest dependents retention events others finished} (result : Variable)
      (hwiring : wiring id = some (dependents, retention)) (hdependents : Nested wiring dependents events true)
      (hrest : Nested wiring rest others finished) :
      Nested wiring (id :: rest) (.processed id result :: (events ++ retention.closingEvent id result :: others)) finished
  | failed {id rest dependents retention events} (result : Variable) (hwiring : wiring id = some (dependents, retention))
      (hdependents : Nested wiring dependents events false) :
      Nested wiring (id :: rest) (.processed id result :: (events ++ [retention.closingEvent id result])) false

theorem Retention.filterMap_closing (id : NodeId) (result : Variable) (retention : Retention) :
    (retention.closing id result).filterMap RunStep.told? = [retention.closingEvent id result] := by
  cases retention <;> rfl

theorem RunStep.filterMap_pass (id : NodeId) (result : Variable) (steps : List RunStep) :
    (RunStep.pass id result :: steps).filterMap told? = .processed id result :: steps.filterMap told? := rfl

/-- Where no node objects, the events are well nested. The proof is by induction
    on the course of the run. -/
theorem Course.nested {wiring : NodeId → Option (List NodeId × Retention)} {source : Option NodeId} {input : Option Variable}
    {ids : List NodeId} {steps : List RunStep} {outcome : Except GraphError Unit}
    (h : Course wiring source input ids steps outcome)
    (hsettled : ∀ id result cause, .complete id result (.error cause) ∉ steps) :
    Nested wiring ids (steps.filterMap RunStep.told?) outcome.isOk := by
  induction h with
  | done => exact .done
  | refused cause => exact .refused
  | absorbed _ ih => exact .absorbed (ih fun id result cause hmem => hsettled id result cause (List.mem_cons_of_mem _ hmem))
  | @passed source input id rest result dependents retention steps others outcome hwiring _ _ ih ihrest =>
    have hsteps := ih fun id result cause hmem => hsettled id result cause (by simp [hmem])
    have hothers := ihrest fun id result cause hmem => hsettled id result cause (by simp [hmem])
    have hpassed := hsteps.passed result hwiring hothers
    rwa [List.filterMap_cons_none rfl, RunStep.filterMap_pass, List.filterMap_append, List.filterMap_append,
      Retention.filterMap_closing]
  | @failed source input id rest result dependents retention steps cause hwiring _ ih =>
    have hsteps := ih fun id result cause hmem => hsettled id result cause (by simp [hmem])
    have hfailed : Nested wiring (id :: rest) _ _ := hsteps.failed result hwiring
    rwa [List.filterMap_cons_none rfl, RunStep.filterMap_pass, List.filterMap_append, Retention.filterMap_closing]
  | @unsettled source input id rest result dependents steps outcome cause =>
    exact (hsettled id result cause (by simp)).elim

namespace GraphM

open RunStep (Path)

variable {ν σ : Type} [GraphNode ν]

/-- What a run does, and what the observer is told of it, is well nested,
    whatever the nodes do and however deep notifications go, and whether the run
    succeeds or fails. Each result is settled once, after all dependents have
    seen it or one of them has failed: it is kept, or first its node is told and
    then the observer. Only a node that then objects keeps the observer from
    being told. -/
theorem runWithin_nested (hunobserving : GraphNode.Unobserving ν σ) {limit : GraphState ν σ → Nat}
    {before after : GraphState ν σ} {outcome : Except GraphError (List (NodeId × Variable))}
    (hrun : (runWithin limit).runFrom before = (outcome.mapError .error, after)) :
    ∃ steps ran, Path steps before ran ∧ ran.activity = after.activity ∧
      Course before.graph.wiring none none before.graph.leaves steps (outcome.map fun _ => ()) ∧
      after.activity.observed = before.activity.observed ++ steps.filterMap RunStep.told? ∧
      ((∀ id result cause, .complete id result (.error cause) ∉ steps) →
        Nested before.graph.wiring before.graph.leaves (steps.filterMap RunStep.told?) outcome.isOk) := by
  rw [runWithin, Stateful.runFrom_bind, Stateful.runFrom_get] at hrun
  dsimp only at hrun
  rw [Stateful.runFrom_bind] at hrun
  rcases hleaves : (notifyAll (fun leaf => do processWithin (limit (← get)) leaf none none) before.graph.leaves).runFrom before
    with ⟨notified, ran⟩
  rw [hleaves] at hrun
  have hended : notified = (outcome.map fun _ => ()).mapError .error ∧ ran.activity = after.activity := by
    rcases notified with (cause | fault) | ⟨⟩
    · obtain ⟨houtcome, rfl⟩ := Prod.mk.inj hrun
      exact ⟨by cases outcome <;> cases houtcome; rfl, rfl⟩
    · rcases outcome with found | ⟨⟩ <;> cases hrun
    · obtain ⟨houtcome, rfl⟩ := Prod.mk.inj hrun
      exact ⟨by cases outcome <;> cases houtcome; rfl, rfl⟩
  obtain ⟨rfl, hactivity⟩ := hended
  obtain ⟨steps, hpath, hcourse⟩ := @notifyAll_course _ _ _ before.graph.wiring none none _
    (fun leaf start ended final => processWithin_course (limit start) leaf none none start ended final)
    before.graph.leaves before (outcome.map fun _ => ()) ran rfl hleaves
  refine ⟨steps, ran, hpath, hactivity, hcourse, ?_, fun hsettled => ?_⟩
  · rw [← hactivity, hpath.observed_eq hunobserving]
  · have hnested := hcourse.nested hsettled
    cases outcome <;> exact hnested

/-- A graph that adds a number to itself, and has no other slot than the one
    that the first operand takes. -/
def overdrawn : GraphState Node Unit where
  graph :=
    { entries := #[
        { node := .literal (.unmanaged (.constant (.i32 3))), dependents := [⟨1⟩, ⟨1⟩] },
        { node := .binary { op := .add, lhs := ⟨0⟩, rhs := ⟨0⟩ }, retention := .output }] }
  activity := { storage := ⟨{ maxSlots := 1 }, { contexts := [.compute], client := () }⟩ }

/-- The sum of a number and itself with a single slot. There is none for the
    result, and all that was told before that is well nested. -/
theorem runWithin_nested_overdrawn : GraphNode.Unobserving Node Unit ∧ ∃ after,
    (runWithin depthLimit).runFrom overdrawn = (.error (.error (.allocator (.exhausted 1))), after) ∧
    ∃ steps ran, Path steps overdrawn ran ∧ ran.activity = after.activity ∧
      Course overdrawn.graph.wiring none none overdrawn.graph.leaves steps (.error (.allocator (.exhausted 1))) ∧
      after.activity.observed = overdrawn.activity.observed ++ steps.filterMap RunStep.told? ∧
      ((∀ id result cause, .complete id result (.error cause) ∉ steps) →
        Nested overdrawn.graph.wiring overdrawn.graph.leaves (steps.filterMap RunStep.told?) false) := by
  have houtcome : ((runWithin depthLimit).runFrom overdrawn).1 = .error (.error (.allocator (.exhausted 1))) := by
    decide +kernel
  have hrun : (runWithin depthLimit).runFrom overdrawn =
      (.error (.error (.allocator (.exhausted 1))), ((runWithin depthLimit).runFrom overdrawn).2) := Prod.ext houtcome rfl
  exact ⟨Node.unobserving Unit, _, hrun,
    @runWithin_nested Node Unit _ (Node.unobserving Unit) depthLimit overdrawn _ (.error (.allocator (.exhausted 1))) hrun⟩

end GraphM

end StagedArrays
