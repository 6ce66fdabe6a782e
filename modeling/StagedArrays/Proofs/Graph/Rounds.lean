import StagedArrays.Graph.Node
import StagedArrays.Proofs.Coupling

namespace StagedArrays

/-- A value on its way to those that take it: where it comes from, and who has
    yet to see it. The leaves are asked one after the other as if by a node
    without a name. -/
structure Round where
  source : Option NodeId
  input : Option Variable
  rest : List NodeId

namespace Graph

variable {ν : Type} {graph : Graph ν}

/-- Who takes the result of a node, and what happens to it afterwards. -/
def wiring (graph : Graph ν) (id : NodeId) : Option (List NodeId × Retention) :=
  graph.entries[id.index]?.map fun entry => (entry.dependents, entry.retention)

theorem dependents_eq (id : NodeId) : graph.dependents id = (graph.wiring id).elim [] Prod.fst := by
  unfold dependents wiring
  cases graph.entries[id.index]? <;> rfl

end Graph

namespace GraphState

variable {ν σ : Type}

/-- The same with one more event in the journal. -/
def noted (state : GraphState ν σ) (event : Event) : GraphState ν σ :=
  ⟨state.graph, { state.activity with journal := state.activity.journal.push event }⟩

/-- The same without the results kept so far. -/
def handOver (state : GraphState ν σ) : GraphState ν σ := ⟨{ state.graph with outputs := [] }, state.activity⟩

end GraphState

namespace GraphM

open Stateful (Moves Couples Ends)

variable {ν σ : Type}

@[simp]
theorem runFrom_onActivity {α : Type} (action : ActivityM σ α) (state : GraphState ν σ) :
    (onActivity action).runFrom state =
      ((action.runFrom state.activity).1, ⟨state.graph, (action.runFrom state.activity).2⟩) := rfl

theorem runFrom_note (event : Event) (state : GraphState ν σ) :
    (onActivity (.note event) : GraphM ν σ Unit).runFrom state = (.ok (), state.noted event) := rfl

/-- A step of a node wires nothing, however it ends. -/
theorem wiring_onNode {α : Type} (id : NodeId) (action : NodeM ν σ α) (state : GraphState ν σ) :
    ((onNode id action).runFrom state).2.graph.wiring = state.graph.wiring := by
  rw [onNode, Stateful.runFrom_bind, Stateful.runFrom_get]
  dsimp only
  split
  · rfl
  · funext other
    simp only [Stateful.runFrom_focus, Graph.wiring, Graph.modifyEntry, Array.getElem?_modify]
    split
    · cases state.graph.entries[other.index]? <;> rfl
    · rfl

/-- A step of a node changes nothing but what the node keeps, and only a node
    that is there takes one. -/
theorem wiring_eq_of_onNode {α : Type} {action : NodeM ν σ α} {id : NodeId} {a : α} {state after : GraphState ν σ}
    (hrun : (onNode id action).runFrom state = (.ok a, after)) :
    after.graph.wiring = state.graph.wiring ∧ ∃ dependents retention, state.graph.wiring id = some (dependents, retention) := by
  have hsame := wiring_onNode id action state
  rw [hrun] at hsame
  refine ⟨hsame, ?_⟩
  simp only [onNode, Stateful.runFrom_bind, Stateful.runFrom_get] at hrun
  split at hrun
  · cases hrun
  · next entry hentry => exact ⟨entry.dependents, entry.retention, by rw [Graph.wiring, hentry]; rfl⟩

variable [GraphNode ν]

/-- The dependents of a node see its result, and then it is settled. -/
def relay (depth : Nat) (id : NodeId) (dependents : List NodeId) (retention : Retention) (result : Variable) :
    GraphM ν σ Unit := do
  let notified ← Stateful.attempt
    (notifyAll (fun dependent => processWithin depth dependent (some id) (some result)) dependents)
  match notified with
  | .error (.fault fault) => throw (.fault fault)
  | _ =>
    settleResult id retention result
    Stateful.settle notified

/-- A run with notifications inside one another as deep as `limit` tells for
    each leaf. -/
def runWithin (limit : GraphState ν σ → Nat) : GraphM ν σ (List (NodeId × Variable)) := do
  notifyAll (fun leaf => do processWithin (limit (← get)) leaf none none) (← get).graph.leaves
  let graph := (← get).graph
  setGraph { graph with outputs := [] }
  return graph.outputs

theorem run_eq_runWithin : (run : GraphM ν σ (List (NodeId × Variable))) = runWithin depthLimit := rfl

section Process

variable {depth : Nat} {id : NodeId} {source : Option NodeId} {input : Option Variable} {state after : GraphState ν σ}

/-- A node that objects ends the notification. Nothing is passed on. -/
theorem runFrom_processWithin_of_error {failure : Failure GraphError}
    (hrun : (onNode id (GraphNode.process source input)).runFrom state = (.error failure, after)) :
    (processWithin (depth + 1) id source input).runFrom state = (.error failure, after) :=
  Stateful.runFrom_bind_of_error hrun _

/-- A node that has no result yet ends it as well, without an error. It waits
    for another value. -/
theorem runFrom_processWithin_of_none
    (hrun : (onNode id (GraphNode.process source input)).runFrom state = (.ok none, after)) :
    (processWithin (depth + 1) id source input).runFrom state = (.ok (), after) :=
  Stateful.runFrom_bind_of_ok hrun _

/-- A node first, and then what comes of its result. -/
theorem runFrom_processWithin_of_some {result : Variable} {dependents : List NodeId} {retention : Retention}
    (hrun : (onNode id (GraphNode.process source input)).runFrom state = (.ok (some result), after))
    (hwiring : after.graph.wiring id = some (dependents, retention)) :
    (processWithin (depth + 1) id source input).runFrom state =
      (relay depth id dependents retention result).runFrom (after.noted (.processed id result)) := by
  rw [processWithin, Stateful.runFrom_bind_of_ok hrun]
  dsimp only
  rw [Stateful.runFrom_bind_of_ok (runFrom_note _ _), Stateful.runFrom_bind, Stateful.runFrom_get]
  have hdependents : (after.noted (.processed id result)).graph.dependents id = dependents := by
    rw [Graph.dependents_eq, GraphState.noted, hwiring]
    rfl
  obtain ⟨entry, hentry, hsame⟩ := Option.map_eq_some_iff.mp hwiring
  have hentry' : (after.noted (.processed id result)).graph.entries[id.index]? = some entry := hentry
  obtain ⟨-, rfl⟩ := Prod.mk.inj hsame
  simp only [hdependents, hentry']
  rfl

end Process

section Moves

variable {order : GraphState ν σ → GraphState ν σ → Prop} [IsPreorder (GraphState ν σ) order]

omit [GraphNode ν] in
/-- To notify nodes moves along an order if each notification does. By recursion
    on the list. -/
theorem moves_notifyAll {notify : NodeId → GraphM ν σ Unit} (h : ∀ id, Moves order (notify id)) :
    ∀ ids, Moves order (notifyAll notify ids)
  | [] => .pure _
  | id :: rest => .bind (h id) fun _ => moves_notifyAll h rest

/-- Relaying a result moves a graph along an order if the processing of the
    dependents and the settling of the result do. The settling comes last also
    where a dependent has failed. -/
theorem moves_relay {depth : Nat} (h : ∀ id source input, Moves order (processWithin depth id source input : GraphM ν σ Unit))
    (hsettle : ∀ id retention result, Moves order (settleResult id retention result : GraphM ν σ Unit)) (id : NodeId)
    (dependents : List NodeId) (retention : Retention) (result : Variable) :
    Moves order (relay depth id dependents retention result : GraphM ν σ Unit) := by
  refine .bind (.attempt (moves_notifyAll (fun dependent => h dependent _ _) _)) fun notified => ?_
  rcases notified with (cause | fault) | value
  · exact .bind (hsettle _ _ _) fun _ => .throw _
  · exact .throw _
  · exact .bind (hsettle _ _ _) fun _ => .pure _

/-- What follows the step of a node comes after it. -/
theorem order_processWithin_succ {depth : Nat} {id : NodeId} {source : Option NodeId} {input : Option Variable}
    {state : GraphState ν σ} (h : ∀ id source input, Moves order (processWithin depth id source input : GraphM ν σ Unit))
    (hnote : ∀ event, Moves order (onActivity (.note event) : GraphM ν σ Unit))
    (hsettle : ∀ id retention result, Moves order (settleResult id retention result : GraphM ν σ Unit)) :
    order ((onNode id (GraphNode.process source input)).runFrom state).2
      ((processWithin (depth + 1) id source input).runFrom state).2 := by
  rcases hrun : (onNode id (GraphNode.process source input)).runFrom state with ⟨failure | result, after⟩
  · rw [runFrom_processWithin_of_error hrun]
    exact refl_of order after
  cases result with
  | none =>
    rw [runFrom_processWithin_of_none hrun]
    exact refl_of order after
  | some result =>
    obtain ⟨hsame, dependents, retention, hwiring⟩ := wiring_eq_of_onNode hrun
    rw [runFrom_processWithin_of_some hrun (hsame ▸ hwiring)]
    have hnoted := hnote (.processed id result) after
    rw [runFrom_note] at hnoted
    exact trans_of order hnoted (moves_relay h hsettle id dependents retention result _)

/-- A graph moves along an order as its nodes do. -/
theorem moves_processWithin
    (hnode : ∀ id source input, Moves order (onNode id (GraphNode.process source input) : GraphM ν σ (Option Variable)))
    (hnote : ∀ event, Moves order (onActivity (.note event) : GraphM ν σ Unit))
    (hsettle : ∀ id retention result, Moves order (settleResult id retention result : GraphM ν σ Unit)) (depth : Nat) :
    ∀ id source input, Moves order (processWithin depth id source input : GraphM ν σ Unit) := by
  induction depth with
  | zero => exact fun _ _ _ => .throw _
  | succ depth ih =>
    intro id source input state
    exact trans_of order (hnode id source input state) (order_processWithin_succ ih hnote hsettle)

end Moves

/-- Two graphs at work side by side, with the same rounds under way in both.
    `together` is kept as long as neither fails and `failing` from then on;
    `broken` is what a fault would tell. All of this may rest on `later`, which
    holds of a state of the first graph if of any that comes after. -/
structure Lockstep (wiring : NodeId → Option (List NodeId × Retention)) (limit : Nat)
    (together : List Round → GraphState ν σ → GraphState ν σ → Prop)
    (failing : GraphError → List Round → GraphState ν σ → GraphState ν σ → Prop) (broken : Prop)
    (later : GraphState ν σ → Prop) : Prop where
  wired : ∀ {rounds s t}, together rounds s t → s.graph.wiring = wiring ∧ t.graph.wiring = wiring
  limited : ∀ {rounds s t}, together rounds s t → depthLimit s = limit ∧ depthLimit t = limit
  bounded : ∀ {rounds s t}, together rounds s t → limit < rounds.length → broken
  receives : ∀ {source input id rest rounds s t}, together (⟨source, input, id :: rest⟩ :: rounds) s t →
    later ((onNode id (GraphNode.process source input)).runFrom s).2 →
    Couples (fun result s t => match result with
        | none => together (⟨source, input, rest⟩ :: rounds) s t
        | some result => together (⟨some id, some result, (wiring id).elim [] Prod.fst⟩ :: ⟨source, input, rest⟩ :: rounds)
            (s.noted (.processed id result)) (t.noted (.processed id result)))
      (fun cause => failing cause (⟨source, input, rest⟩ :: rounds)) broken
      ((onNode id (GraphNode.process source input)).runFrom s) ((onNode id (GraphNode.process source input)).runFrom t)
  settles : ∀ {id result dependents retention rounds s t}, together (⟨some id, some result, []⟩ :: rounds) s t →
    wiring id = some (dependents, retention) → later ((settleResult id retention result).runFrom s).2 →
    Couples (fun _ => together rounds) (fun cause => failing cause rounds) broken
      ((settleResult id retention result).runFrom s) ((settleResult id retention result).runFrom t)
  settles_failing : ∀ {cause id result rest dependents retention rounds s t},
    failing cause (⟨some id, some result, rest⟩ :: rounds) s t →
    wiring id = some (dependents, retention) → later ((settleResult id retention result).runFrom s).2 →
    Couples (fun _ => failing cause rounds) (fun cause => failing cause rounds) broken
      ((settleResult id retention result).runFrom s) ((settleResult id retention result).runFrom t)
  failing_skip : ∀ {cause source input rest rounds s t} rest', failing cause (⟨source, input, rest⟩ :: rounds) s t →
    failing cause (⟨source, input, rest'⟩ :: rounds) s t
  later_node : ∀ id source input, Moves (fun before after => later after → later before)
    (onNode id (GraphNode.process source input) : GraphM ν σ (Option Variable))
  later_note : ∀ event, Moves (fun before after => later after → later before) (onActivity (.note event) : GraphM ν σ Unit)
  later_settle : ∀ id retention result, Moves (fun before after => later after → later before)
    (settleResult id retention result : GraphM ν σ Unit)

instance later_isPreorder {σ : Type} (later : σ → Prop) : IsPreorder σ fun before after => later after → later before where
  refl _ h := h
  trans _ _ _ h h' := fun hlater => h (h' hlater)

namespace Lockstep

variable {wiring : NodeId → Option (List NodeId × Retention)} {limit : Nat}
  {together : List Round → GraphState ν σ → GraphState ν σ → Prop}
  {failing : GraphError → List Round → GraphState ν σ → GraphState ν σ → Prop} {broken : Prop}
  {later : GraphState ν σ → Prop}

theorem later_processWithin (h : Lockstep wiring limit together failing broken later) (depth : Nat) (id : NodeId)
    (source : Option NodeId) (input : Option Variable) :
    Moves (fun before after => later after → later before) (processWithin depth id source input : GraphM ν σ Unit) :=
  moves_processWithin h.later_node h.later_note h.later_settle depth id source input

/-- If the dependents of a node go together one by one, they do so all. -/
theorem notifyAll_couples (h : Lockstep wiring limit together failing broken later) {notify : NodeId → GraphM ν σ Unit}
    {source : Option NodeId} {input : Option Variable} {rounds : List Round}
    (hmoves : ∀ id, Moves (fun before after => later after → later before) (notify id))
    (hnotify : ∀ id rest s t, together (⟨source, input, id :: rest⟩ :: rounds) s t → later ((notify id).runFrom s).2 →
      Couples (fun _ => together (⟨source, input, rest⟩ :: rounds))
        (fun cause => failing cause (⟨source, input, rest⟩ :: rounds)) broken
        ((notify id).runFrom s) ((notify id).runFrom t)) :
    ∀ ids s t, together (⟨source, input, ids⟩ :: rounds) s t → later ((notifyAll notify ids).runFrom s).2 →
      Couples (fun _ => together (⟨source, input, []⟩ :: rounds))
        (fun cause => failing cause (⟨source, input, []⟩ :: rounds)) broken
        ((notifyAll notify ids).runFrom s) ((notifyAll notify ids).runFrom t) := by
  intro ids
  induction ids with
  | nil => exact fun s t htogether _ => .of_ok htogether
  | cons id rest ih =>
    intro s t htogether hlater
    refine Couples.bind_of_later hlater (fun _ => moves_notifyAll hmoves rest)
      (fun hfirst => (hnotify id rest s t htogether hfirst).mono (fun _ _ _ hok => hok)
        fun _ _ _ hfailing => h.failing_skip [] hfailing) ?_
    exact fun _ s t htogether hlater => ih s t htogether hlater

/-- A result that all dependents have seen, or could not see, is settled. -/
theorem relay_couples (h : Lockstep wiring limit together failing broken later) {depth : Nat} {id : NodeId}
    {result : Variable} {dependents : List NodeId} {retention : Retention} {rounds : List Round} {s t : GraphState ν σ}
    (hwiring : wiring id = some (dependents, retention))
    (hprocess : ∀ dependent rest s t, together (⟨some id, some result, dependent :: rest⟩ :: rounds) s t →
      later ((processWithin depth dependent (some id) (some result)).runFrom s).2 →
      Couples (fun _ => together (⟨some id, some result, rest⟩ :: rounds))
        (fun cause => failing cause (⟨some id, some result, rest⟩ :: rounds)) broken
        ((processWithin depth dependent (some id) (some result)).runFrom s)
        ((processWithin depth dependent (some id) (some result)).runFrom t))
    (htogether : together (⟨some id, some result, dependents⟩ :: rounds) s t)
    (hlater : later ((relay depth id dependents retention result).runFrom s).2) :
    Couples (fun _ => together rounds) (fun cause => failing cause rounds) broken
      ((relay depth id dependents retention result).runFrom s) ((relay depth id dependents retention result).runFrom t) := by
  have hnotify := fun hlater => h.notifyAll_couples (fun dependent => h.later_processWithin depth dependent _ _) hprocess
    dependents s t htogether hlater
  rw [relay, Stateful.runFrom_bind, Stateful.runFrom_attempt] at hlater ⊢
  rw [Stateful.runFrom_bind, Stateful.runFrom_attempt]
  generalize (notifyAll (fun dependent => processWithin depth dependent (some id) (some result)) dependents).runFrom s =
    notified, (notifyAll (fun dependent => processWithin depth dependent (some id) (some result)) dependents).runFrom t =
    notified' at hlater hnotify ⊢
  obtain ⟨outcome, s'⟩ := notified
  obtain ⟨outcome', t'⟩ := notified'
  -- settling comes after the notifications however they end
  have hsettle (next : Unit → GraphM ν σ Unit) (hnext : ∀ u, Moves (fun before after => later after → later before) (next u))
      (hlater : later ((settleResult id retention result >>= next).runFrom s').2) :
      later s' := ((h.later_settle id retention result).bind hnext) s' hlater
  rcases outcome with (cause | fault) | ⟨⟩
  · have hlater' := hsettle _ (fun _ => .throw _) hlater
    have hnotified := hnotify hlater'
    obtain rfl : outcome' = .error (.error cause) := hnotified.outcome_of_error rfl
    refine Couples.bind_of_later hlater (fun _ => .throw _)
      (fun hfirst => h.settles_failing (hnotified.error cause rfl) hwiring hfirst) ?_
    exact fun _ s t hfailing _ => .of_error hfailing
  · exact .of_fault ((hnotify hlater).fault fault rfl)
  · have hlater' := hsettle _ (fun _ => .pure _) hlater
    have hnotified := hnotify hlater'
    obtain rfl : outcome' = .ok () := hnotified.outcome_of_ok rfl
    refine Couples.bind_of_later hlater (fun _ => .pure _)
      (fun hfirst => h.settles (hnotified.ok () rfl) hwiring hfirst) ?_
    exact fun _ s t hkept _ => .of_ok hkept

/-- What is true of one step of a node is true of all that follows from it. -/
theorem processWithin_couples (h : Lockstep wiring limit together failing broken later) :
    ∀ depth id source input rest rounds s t, depth + rounds.length = limit →
      together (⟨source, input, id :: rest⟩ :: rounds) s t →
      later ((processWithin depth id source input).runFrom s).2 →
      Couples (fun _ => together (⟨source, input, rest⟩ :: rounds))
        (fun cause => failing cause (⟨source, input, rest⟩ :: rounds)) broken
        ((processWithin depth id source input).runFrom s) ((processWithin depth id source input).runFrom t) := by
  intro depth
  induction depth with
  | zero =>
    intro id source input rest rounds s t hdepth htogether _
    exact .of_fault (h.bounded htogether (by rw [List.length_cons]; omega))
  | succ depth ih =>
    intro id source input rest rounds s t hdepth htogether hlater
    have hreceives := fun hnode => h.receives htogether hnode
    rcases hrun : (onNode id (GraphNode.process source input)).runFrom s with ⟨outcome, s'⟩
    rcases hrun' : (onNode id (GraphNode.process source input)).runFrom t with ⟨outcome', t'⟩
    rw [hrun, hrun'] at hreceives
    have hnode : later s' := by
      have horder := order_processWithin_succ (h.later_processWithin depth) h.later_note h.later_settle hlater
      rwa [hrun] at horder
    have hreceives := hreceives hnode
    rcases outcome with (cause | fault) | result
    · obtain rfl : outcome' = .error (.error cause) := hreceives.outcome_of_error rfl
      rw [runFrom_processWithin_of_error hrun, runFrom_processWithin_of_error hrun']
      exact .of_error (hreceives.error cause rfl)
    · rw [runFrom_processWithin_of_error hrun]
      exact .of_fault (hreceives.fault fault rfl)
    obtain rfl : outcome' = .ok result := hreceives.outcome_of_ok rfl
    have hnext := hreceives.ok result rfl
    cases result with
    | none =>
      rw [runFrom_processWithin_of_none hrun, runFrom_processWithin_of_none hrun']
      exact .of_ok hnext
    | some result =>
      obtain ⟨hsame, dependents, retention, hwiring⟩ := wiring_eq_of_onNode hrun
      obtain ⟨hsame', -⟩ := wiring_eq_of_onNode hrun'
      have hwired := h.wired htogether
      rw [runFrom_processWithin_of_some hrun (hsame ▸ hwiring)] at hlater ⊢
      rw [runFrom_processWithin_of_some hrun' (hsame' ▸ hwired.2 ▸ hwired.1 ▸ hwiring)]
      rw [hwired.1] at hwiring
      rw [hwiring] at hnext
      refine h.relay_couples hwiring (fun dependent rest' s t htogether hlater => ?_) hnext hlater
      exact ih dependent _ _ rest' _ s t (by rw [List.length_cons]; omega) htogether hlater

/-- What is true of one step of a node is true of all that follows from the
    leaves. -/
theorem leaves_couples (h : Lockstep wiring limit together failing broken later) {ids : List NodeId} {s t : GraphState ν σ}
    (htogether : together [⟨none, none, ids⟩] s t)
    (hlater : later ((notifyAll (fun leaf => process leaf none none) ids).runFrom s).2) :
    Couples (fun _ => together [⟨none, none, []⟩]) (fun cause => failing cause [⟨none, none, []⟩]) broken
      ((notifyAll (fun leaf => process leaf none none) ids).runFrom s)
      ((notifyAll (fun leaf => process leaf none none) ids).runFrom t) := by
  have hmoves (leaf : NodeId) : Moves (fun before after => later after → later before)
      (process leaf none none : GraphM ν σ Unit) :=
    .bind (.of_eq fun _ => rfl) fun _ => h.later_processWithin _ leaf none none
  refine h.notifyAll_couples hmoves (fun leaf rest s t htogether hlater => ?_) ids s t htogether hlater
  have hlimit := h.limited htogether
  rw [process, Stateful.runFrom_bind, Stateful.runFrom_get] at hlater ⊢
  rw [Stateful.runFrom_bind, Stateful.runFrom_get]
  dsimp only at hlater ⊢
  rw [hlimit.1] at hlater ⊢
  rw [hlimit.2]
  exact h.processWithin_couples limit leaf none none rest [] s t rfl htogether hlater

/-- What is true of one step of a node is true of a whole run. -/
theorem run_couples (h : Lockstep wiring limit together failing broken later) {s t : GraphState ν σ}
    (hleaves : t.graph.leaves = s.graph.leaves) (htogether : together [⟨none, none, s.graph.leaves⟩] s t)
    (houtputs : ∀ {rounds s t}, together rounds s t → t.graph.outputs = s.graph.outputs)
    (hhand : ∀ s : GraphState ν σ, later s.handOver → later s) (hlater : later (run.runFrom s).2) :
    Couples (fun outputs s t => ∃ s' t', together [⟨none, none, []⟩] s' t' ∧ outputs = s'.graph.outputs ∧ s = s'.handOver ∧
        t = t'.handOver)
      (fun cause => failing cause [⟨none, none, []⟩]) broken (run.runFrom s) (run.runFrom t) := by
  rw [run, Stateful.runFrom_bind, Stateful.runFrom_get] at hlater ⊢
  rw [Stateful.runFrom_bind, Stateful.runFrom_get]
  dsimp only at hlater ⊢
  rw [hleaves]
  refine Couples.bind_of_later hlater (fun _ state hhanded => hhand state hhanded) (h.leaves_couples htogether) ?_
  intro _ s' t' hend _
  have hsame := houtputs hend
  refine ⟨fun _ => ?_, ?_, fun _ heq => (nomatch heq), fun _ heq => (nomatch heq)⟩
  · exact congrArg Except.ok hsame
  · rintro _ ⟨⟩
    exact ⟨s', t', hend, rfl, rfl, rfl⟩

end Lockstep

/-- A graph at work with rounds under way: `working` is kept as long as no step
    fails and `failing` from then on; `broken` is what a fault would tell. -/
structure Invariant (wiring : NodeId → Option (List NodeId × Retention)) (limit : Nat)
    (working : List Round → GraphState ν σ → Prop) (failing : GraphError → List Round → GraphState ν σ → Prop)
    (broken : Prop) : Prop where
  wired : ∀ {rounds state}, working rounds state → state.graph.wiring = wiring
  limited : ∀ {rounds state}, working rounds state → depthLimit state = limit
  bounded : ∀ {rounds state}, working rounds state → limit < rounds.length → broken
  receives : ∀ {source input id rest rounds state}, working (⟨source, input, id :: rest⟩ :: rounds) state →
    Ends (fun result after => match result with
        | none => working (⟨source, input, rest⟩ :: rounds) after
        | some result => working (⟨some id, some result, (wiring id).elim [] Prod.fst⟩ :: ⟨source, input, rest⟩ :: rounds)
            (after.noted (.processed id result)))
      (fun cause => failing cause (⟨source, input, rest⟩ :: rounds)) broken
      ((onNode id (GraphNode.process source input)).runFrom state)
  settles : ∀ {id result dependents retention rounds state}, working (⟨some id, some result, []⟩ :: rounds) state →
    wiring id = some (dependents, retention) →
    Ends (fun _ => working rounds) (fun cause => failing cause rounds) broken
      ((settleResult id retention result).runFrom state)
  settles_failing : ∀ {cause id result rest dependents retention rounds state},
    failing cause (⟨some id, some result, rest⟩ :: rounds) state → wiring id = some (dependents, retention) →
    Ends (fun _ => failing cause rounds) (fun cause => failing cause rounds) broken
      ((settleResult id retention result).runFrom state)
  failing_skip : ∀ {cause source input rest rounds state} rest', failing cause (⟨source, input, rest⟩ :: rounds) state →
    failing cause (⟨source, input, rest'⟩ :: rounds) state

namespace Invariant

variable {wiring : NodeId → Option (List NodeId × Retention)} {limit : Nat} {working : List Round → GraphState ν σ → Prop}
  {failing : GraphError → List Round → GraphState ν σ → Prop} {broken : Prop}

/-- An invariant holds of a graph that goes along with itself. -/
theorem lockstep (h : Invariant wiring limit working failing broken) :
    Lockstep wiring limit (fun rounds s t => t = s ∧ working rounds s) (fun cause rounds s t => t = s ∧ failing cause rounds s)
      broken fun _ => True where
  wired := by
    rintro rounds s _ ⟨rfl, hworking⟩
    exact ⟨h.wired hworking, h.wired hworking⟩
  limited := by
    rintro rounds s _ ⟨rfl, hworking⟩
    exact ⟨h.limited hworking, h.limited hworking⟩
  bounded := by
    rintro rounds s _ ⟨rfl, hworking⟩
    exact h.bounded hworking
  receives := by
    rintro source input id rest rounds s _ ⟨rfl, hworking⟩ -
    refine ((h.receives hworking).couples).mono ?_ fun _ _ _ hfailing => hfailing
    rintro (_ | result) s t ⟨rfl, hnext⟩
    · exact ⟨rfl, hnext⟩
    · exact ⟨rfl, hnext⟩
  settles := by
    rintro id result dependents retention rounds s _ ⟨rfl, hworking⟩ hwiring -
    exact (h.settles hworking hwiring).couples
  settles_failing := by
    rintro cause id result rest dependents retention rounds s _ ⟨rfl, hfailing⟩ hwiring -
    exact (h.settles_failing hfailing hwiring).couples
  failing_skip := by
    rintro cause source input rest rounds s _ rest' ⟨rfl, hfailing⟩
    exact ⟨rfl, h.failing_skip rest' hfailing⟩
  later_node _ _ _ _ := id
  later_note _ _ := id
  later_settle _ _ _ _ := id

/-- What is true of one step of a node is true of a whole run. -/
theorem run_ends (h : Invariant wiring limit working failing broken) {state : GraphState ν σ}
    (hworking : working [⟨none, none, state.graph.leaves⟩] state) :
    Ends (fun outputs after => ∃ ran, working [⟨none, none, []⟩] ran ∧ outputs = ran.graph.outputs ∧ after = ran.handOver)
      (fun cause => failing cause [⟨none, none, []⟩]) broken (run.runFrom state) := by
  have hrun := h.lockstep.run_couples rfl ⟨rfl, hworking⟩ (by rintro _ _ _ ⟨rfl, -⟩; rfl) (fun _ => id) trivial
  refine hrun.ends.mono ?_ fun _ _ hend => hend.2
  rintro outputs _ ⟨ran, _, ⟨rfl, hend⟩, houtputs, rfl, -⟩
  exact ⟨_, hend, houtputs, rfl⟩

end Invariant

end GraphM

end StagedArrays
