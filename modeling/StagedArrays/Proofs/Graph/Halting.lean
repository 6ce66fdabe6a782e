import StagedArrays.Proofs.Context.Overflow
import StagedArrays.Proofs.Graph.Founded

namespace StagedArrays

open Stateful (Moves Plain)

namespace ActivityM

variable {σ α : Type}

/-- To report an outcome in the journal adds no way of failing. -/
theorem plain_noted {event : Except AllocatorError α → Event} {action : StorageM σ α} (h : Plain action) :
    Plain (noted event action) := by
  intro activity
  have hplain := h activity.storage
  rw [runFrom_noted]
  rcases hrun : action.runFrom activity.storage with ⟨(cause | fault) | value, storage⟩
  · exact .of_error trivial
  · rw [hrun] at hplain
    exact .of_error (hplain (.fault fault) rfl)
  · exact .ok value

theorem plain_free (v : Variable) : Plain (free v : ActivityM σ Unit) := plain_noted (StorageM.plain_free v)

end ActivityM

namespace BinaryNode

variable {σ : Type}

/-- Fresh storage is asked for and filled. It fails plainly if its filling
    does. -/
theorem plain_fresh (like : Variable) {fill : Value → Action σ Unit} (hfill : ∀ value, Plain (fill value)) :
    Plain (fresh like fill) := by
  refine .bind (.lift (.plain_fault like.layout.contiguous_fails)) fun layout => ?_
  refine .bind (ActivityM.plain_noted (StorageM.plain_allocate _ _)) fun storage => ?_
  have hfilled : Plain (ActivityM.onWorld (fill storage.value)) := .focus _ ((hfill storage.value).mapCause _)
  refine .attempt_bind hfilled fun outcome houtcome => ?_
  rcases outcome with (cause | fault) | ⟨⟩
  · exact .bind (ActivityM.plain_free storage) fun _ => .fail cause
  · exact .throw (houtcome _ rfl)
  · exact .pure _

theorem plain_hold (input : Variable) : Plain (hold input : ActivityM σ Variable) := by
  rw [hold_eq]
  exact plain_fresh input fun _ => Elementwise.plain_copyInto _ _

/-- To compute a result fails plainly. This includes the comparison of the
    operands and the lack of room. -/
theorem plain_compute (op : BinaryOp) (lhs rhs : Variable) : Plain (compute op lhs rhs : ActivityM σ Variable) := by
  have hcheck : FailsOnly Failure.Plain (checkOperands lhs rhs) := by
    unfold checkOperands
    by_cases hdtype : lhs.dtype = rhs.dtype
    · by_cases hextents : rhs.layout.rank ≠ 0 ∧ rhs.layout.extents ≠ lhs.layout.extents
      · simp only [hdtype, ne_eq, not_true, if_false]
        rw [if_pos hextents]
        exact .bind (.plain_fault lhs.value.layout.elementCount_fails) fun _ =>
          .bind (.plain_fault rhs.value.layout.elementCount_fails) fun _ => .of_error trivial
      · simp only [hdtype, ne_eq, not_true, if_false]
        rw [if_neg hextents]
        exact .ok _
    · simp only [ne_eq, hdtype, not_false_iff, if_true]
      exact .of_error trivial
  intro activity
  rw [runFrom_compute]
  rcases hoperands : checkOperands lhs rhs with failure | ⟨⟩
  · exact .of_error (hcheck failure hoperands)
  · exact plain_fresh lhs (fun output => .bind (Elementwise.plain_copyInto _ _) fun _ => Elementwise.plain_assignBinary _ _ _) activity

/-- So does the whole step of a node. Giving up the operand that was held may be
    an error. -/
theorem plain_combine (op : BinaryOp) (side : Side) (held input : Variable) :
    Plain (combine op side held input : ActivityM σ Variable) := by
  have hreleasing {action : ActivityM σ Variable} (h : Plain action) : Plain (releasing held action) := by
    refine .attempt_bind h fun outcome houtcome => ?_
    rcases outcome with (cause | fault) | result
    · exact .bind (ActivityM.plain_free held) fun _ => .throw trivial
    · exact .throw (houtcome _ rfl)
    · exact .bind (ActivityM.plain_free held) fun _ => .pure _
  cases side with
  | lhs => exact hreleasing (plain_compute op input held)
  | rhs => exact hreleasing (plain_compute op held input)

end BinaryNode

namespace Activity

variable {σ : Type} {activity after : Activity σ} {start : Nat}

/-- What the observer of the nodes has been told from a point of the journal
    on. -/
def toldSince (activity : Activity σ) (start : Nat) : List Event := (activity.since start).filter fun event => !event.onStorage

/-- Asking for storage and giving it back reports no result, so that what was
    told since the start is the same. -/
theorem Quiet.toldSince_eq (h : activity.Quiet after) (hstart : start ≤ activity.journal.size) :
    after.toldSince start = activity.toldSince start := by
  obtain ⟨-, events, heq, hquiet⟩ := h
  have hnone : events.filter (fun event => !event.onStorage) = [] :=
    List.filter_eq_nil_iff.mpr fun event hmem => by simp [hquiet event hmem]
  rw [toldSince, toldSince, since, since, heq, List.drop_append_of_le_length (by simpa using hstart), List.filter_append,
    hnone, List.append_nil]

end Activity

namespace GraphState

variable {σ : Type} {state after : GraphState Node σ} {plan : Graph Node} {start : Nat} {active : List NodeId} {id : NodeId}
  {source : Option NodeId} {input : Option Variable} {result : Variable}

theorem toldSince_noted {ν : Type} {state : GraphState ν σ} (hstart : start ≤ state.activity.journal.size) {event : Event}
    (hevent : event.onStorage = false) :
    (state.noted event).activity.toldSince start = state.activity.toldSince start ++ [event] := by
  rw [Activity.toldSince, since_noted hstart, List.filter_append, Activity.toldSince]
  simp [hevent]

/-- A run that is at an end or about to be: the graph is rooted as before, and
    no node has been too quick. -/
structure Ceased (plan : Graph Node) (start : Nat) (state : GraphState Node σ) : Prop where
  idle_eq : state.graph.idle = plan
  rooted : state.graph.Rooted
  start_le : start ≤ state.activity.journal.size
  spaced : Event.Spaced (state.activity.toldSince start)

/-- A run that goes on, with the nodes whose results are under way. They are the
    ones that notifications are nested in. -/
structure Going (plan : Graph Node) (start : Nat) (active : List NodeId) (state : GraphState Node σ) : Prop
    extends Ceased plan start state where
  inFlight_eq : Event.inFlight (state.activity.toldSince start) = active

theorem Ceased.of_quiet (h : Ceased plan start state) (hquiet : state.activity.Quiet after.activity)
    (hidle : after.graph.idle = state.graph.idle) (hrooted : after.graph.Rooted) : Ceased plan start after :=
  ⟨hidle.trans h.idle_eq, hrooted, Nat.le_trans h.start_le hquiet.size_le, hquiet.toldSince_eq h.start_le ▸ h.spaced⟩

theorem Going.of_quiet (h : Going plan start active state) (hquiet : state.activity.Quiet after.activity)
    (hidle : after.graph.idle = state.graph.idle) (hrooted : after.graph.Rooted) : Going plan start active after :=
  ⟨h.toCeased.of_quiet hquiet hidle hrooted, hquiet.toldSince_eq h.start_le ▸ h.inFlight_eq⟩

/-- A node whose result is not under way may have one. It is under way from then
    on. -/
theorem Going.processed (h : Going plan start active state) (hnew : id ∉ active) (result : Variable) :
    Going plan start (id :: active) (state.noted (.processed id result)) := by
  have htold := @toldSince_noted σ start Node state h.start_le (.processed id result) rfl
  refine ⟨⟨h.idle_eq, h.rooted, start_le_noted h.start_le _, ?_⟩, ?_⟩
  · rw [htold]
    refine h.spaced.append ?_
    rintro _ _ ⟨⟩
    rwa [h.inFlight_eq]
  · rw [htold, Event.inFlight_processed, h.inFlight_eq]

/-- A run that has ceased goes on settling results. No new result is
    announced. -/
theorem Ceased.settled (h : Ceased plan start state) (id : NodeId) (result : Variable) (retention : Retention) :
    Ceased plan start (state.noted (retention.closingEvent id result)) := by
  refine ⟨h.idle_eq, h.rooted, start_le_noted h.start_le _, ?_⟩
  rw [toldSince_noted h.start_le (by cases retention <;> rfl)]
  exact h.spaced.append_settled id result retention

/-- A result that is settled comes off the results under way. The run goes on
    with those below it. -/
theorem Going.settled (h : Going plan start (id :: active) state) (result : Variable) (retention : Retention) :
    Going plan start active (state.noted (retention.closingEvent id result)) := by
  refine ⟨h.toCeased.settled id result retention, ?_⟩
  rw [toldSince_noted h.start_le (by cases retention <;> rfl)]
  exact Event.inFlight_settled h.inFlight_eq retention

/-- A part of a run ends, be it with an error or in a fault of word
    arithmetic. -/
structure Halts {α : Type} (plan : Graph Node) (start : Nat) (run : Except (Failure GraphError) α × GraphState Node σ) :
    Prop where
  plain : FailsOnly Failure.Plain run.1
  ceased : Ceased plan start run.2

/-- It ends, and the run goes on if it succeeds. A run that ends without success
    has ceased. -/
structure Proceeds {α : Type} (plan : Graph Node) (start : Nat) (active : List NodeId)
    (run : Except (Failure GraphError) α × GraphState Node σ) : Prop extends Halts plan start run where
  going : ∀ a, run.1 = .ok a → Going plan start active run.2

theorem Proceeds.of_ok {α : Type} {a : α} (h : Going plan start active state) :
    Proceeds plan start active (.ok a, state) := ⟨⟨.ok a, h.toCeased⟩, fun _ _ => h⟩

theorem Ceased.fails {α : Type} {failure : Failure GraphError} (h : Ceased plan start state) (hplain : failure.Plain) :
    Proceeds plan start active ((.error failure : Except (Failure GraphError) α), state) :=
  ⟨⟨.of_error hplain, h⟩, fun _ heq => nomatch heq⟩

/-- A node that has a result rests on literals alone, and so its result cannot
    be under way. -/
theorem Going.receives (h : Going plan start active state) (hline : plan.Line active) (hsource : active.head? = source)
    (hinput : input.isSome = source.isSome) :
    Proceeds plan start active ((GraphM.onNode id (GraphNode.process source input)).runFrom state) ∧
      ∀ result after, (GraphM.onNode id (GraphNode.process source input)).runFrom state = (.ok (some result), after) →
        plan.Line (id :: active) := by
  obtain ⟨hquiet, hidle, -⟩ := GraphM.process_keeps id source input state
  cases hentry : state.graph.entries[id.index]? with
  | none =>
    rw [GraphM.runFrom_onNode_of_none _ hentry]
    exact ⟨h.toCeased.fails trivial, fun _ _ heq => (nomatch heq)⟩
  | some entry =>
    have hplan : plan.entries[id.index]? = some { entry with node := entry.node.idle } := by
      rw [← h.idle_eq, Graph.getElem?_idle, hentry, Option.map_some]
    rw [GraphM.runFrom_process hentry] at hquiet hidle ⊢
    cases hreaction : entry.node.reaction source input with
    | refuse cause =>
      exact ⟨h.toCeased.fails trivial, fun _ _ heq => (nomatch heq)⟩
    | give value =>
      refine ⟨.of_ok h, fun _ _ _ => ?_⟩
      obtain ⟨hnode, rfl⟩ := Node.eq_literal_of_give hreaction
      have hnone : active.head? = none := hsource.trans (Option.isNone_iff_eq_none.mp (by simpa using hinput.symm))
      refine hline.cons (.node hplan ?_) (by simp [hnone])
      rw [hnode]
      exact fun _ hmem => (List.not_mem_nil hmem).elim
    | hold node side operand =>
      obtain ⟨hnode, -, -, producer, rfl, hside⟩ := Node.eq_binary_of_hold hreaction
      have hfounded : state.graph.idle.Founded (node.operand side) := by
        rw [← BinaryNode.eq_operand_of_sideOf? hside, h.idle_eq]
        exact hline.founded producer (List.mem_of_mem_head? hsource)
      have hplain := BinaryNode.plain_hold operand state.activity
      rw [hreaction] at hquiet hidle
      dsimp only at hquiet hidle ⊢
      rcases hrun : (BinaryNode.hold operand).runFrom state.activity with ⟨failure | held, activity⟩
      · rw [hrun] at hquiet hidle hplain
        have hceased := h.toCeased.of_quiet hquiet hidle h.rooted
        exact ⟨hceased.fails (hplain failure rfl), fun _ _ heq => (nomatch heq)⟩
      · rw [hrun] at hquiet hidle
        refine ⟨.of_ok (h.of_quiet hquiet hidle ?_), fun _ _ heq => (nomatch heq)⟩
        refine h.rooted.setNode hentry (by rw [hnode]; rfl) ?_
        rintro _ _ _ ⟨⟩ ⟨⟩
        exact hfounded
    | combine node side held operand =>
      obtain ⟨hnode, ⟨heldSide, hheld, hne⟩, -, producer, rfl, hside⟩ := Node.eq_binary_of_combine hreaction
      have hrooted : (state.graph.setNode id (.binary { node with held := none })).Rooted := by
        refine h.rooted.setNode hentry (by rw [hnode]; rfl) ?_
        rintro _ _ _ ⟨⟩ heq
        cases heq
      have hplain := BinaryNode.plain_combine node.op side held operand state.activity
      rw [hreaction] at hquiet hidle
      dsimp only at hquiet hidle ⊢
      have hgoing : Going plan start active (⟨state.graph.setNode id (.binary { node with held := none }),
          ((BinaryNode.combine node.op side held operand).runFrom state.activity).2⟩ : GraphState Node σ) :=
        h.of_quiet hquiet hidle hrooted
      refine ⟨⟨⟨?_, hgoing.toCeased⟩, fun _ _ => hgoing⟩, fun _ _ _ => ?_⟩
      · rcases hrun : ((BinaryNode.combine node.op side held operand).runFrom state.activity).1 with failure | result
        · exact .of_error (hplain failure hrun)
        · exact .ok _
      · -- one operand is held from before, the other comes from the last in line
        obtain rfl := BinaryNode.eq_operand_of_sideOf? hside
        have hheldFounded : plan.Founded (node.operand heldSide) :=
          h.idle_eq ▸ h.rooted _ entry node heldSide held hentry hnode hheld
        exact hline.cons_binary hplan (by rw [Node.operands_idle, hnode]) hsource hne hheldFounded

/-- A result is settled, with or without success. The failure that the run has
    ceased with stands in either case. -/
theorem Ceased.settles (h : Ceased plan start state) {dependents : List NodeId} {retention : Retention}
    (hwiring : plan.wiring id = some (dependents, retention)) :
    Halts plan start ((GraphM.settleResult id retention result).runFrom state) ∧
      (Going plan start (id :: active) state → Proceeds plan start active ((GraphM.settleResult id retention result).runFrom state)) := by
  cases retention with
  | output =>
    rw [GraphM.runFrom_settle_output]
    let kept : GraphState Node σ := ⟨state.graph.keep id result, state.activity⟩
    have hkept : Ceased plan start kept := ⟨h.idle_eq, h.rooted, h.start_le, h.spaced⟩
    refine ⟨⟨.ok (), hkept.settled id result .output⟩, fun hgoing => .of_ok ?_⟩
    have hkept : Going plan start (id :: active) kept := ⟨hkept, hgoing.inFlight_eq⟩
    exact hkept.settled result .output
  | free =>
    obtain ⟨entry, hentry⟩ := Graph.exists_entry_of_wiring (h.idle_eq ▸ hwiring)
    have hquiet := ActivityM.quiet_free result state.activity
    have hplain := ActivityM.plain_free result state.activity
    rw [GraphM.runFrom_settle_free result hentry]
    rcases hrun : (ActivityM.free result).runFrom state.activity with ⟨failure | ⟨⟩, activity⟩
    · rw [hrun] at hquiet hplain
      have hfreed : Ceased plan start (⟨state.graph, activity⟩ : GraphState Node σ) := h.of_quiet hquiet rfl h.rooted
      have hfails := @Ceased.fails σ _ plan start active Unit failure hfreed (hplain failure rfl)
      exact ⟨hfails.toHalts, fun _ => hfails⟩
    · rw [hrun] at hquiet
      have hfreed : Ceased plan start (⟨state.graph, activity⟩ : GraphState Node σ) := h.of_quiet hquiet rfl h.rooted
      refine ⟨⟨.ok (), hfreed.settled id result .free⟩, fun hgoing => .of_ok ?_⟩
      have hfreed : Going plan start (id :: active) (⟨state.graph, activity⟩ : GraphState Node σ) :=
        hgoing.of_quiet hquiet rfl h.rooted
      exact hfreed.settled result .free

end GraphState

namespace GraphM

open GraphState (Going Ceased Halts Proceeds)

variable {σ : Type} {plan : Graph Node} {start : Nat} {active : List NodeId}

/-- Two ways to notify nodes do the same to all of them if to each. Only the
    states are considered that a run can come to. -/
theorem notifyAll_proceeds {notify other : NodeId → GraphM Node σ Unit}
    (hnotify : ∀ id state, Going plan start active state →
      (other id).runFrom state = (notify id).runFrom state ∧ Proceeds plan start active ((notify id).runFrom state)) :
    ∀ ids state, Going plan start active state →
      (notifyAll other ids).runFrom state = (notifyAll notify ids).runFrom state ∧
        Proceeds plan start active ((notifyAll notify ids).runFrom state) := by
  intro ids
  induction ids with
  | nil => exact fun state h => ⟨rfl, .of_ok h⟩
  | cons id rest ih =>
    intro state h
    obtain ⟨hsame, hfirst⟩ := hnotify id state h
    rw [notifyAll, notifyAll, Stateful.runFrom_bind, Stateful.runFrom_bind, hsame]
    generalize (notify id).runFrom state = run at hfirst ⊢
    obtain ⟨failure | ⟨⟩, after⟩ := run
    · exact ⟨rfl, hfirst.ceased.fails (hfirst.plain failure rfl)⟩
    · exact ih after (hfirst.going () rfl)

/-- It does not matter how deep notifications may go, where they do not go as
    deep as that. -/
theorem relay_proceeds {depth other : Nat} {id : NodeId} {dependents : List NodeId} {retention : Retention} {result : Variable}
    (hnotify : ∀ dependent (state : GraphState Node σ), Going plan start (id :: active) state →
      (processWithin other dependent (some id) (some result)).runFrom state =
          (processWithin depth dependent (some id) (some result)).runFrom state ∧
        Proceeds plan start (id :: active) ((processWithin depth dependent (some id) (some result)).runFrom state))
    (hwiring : plan.wiring id = some (dependents, retention)) {state : GraphState Node σ}
    (h : Going plan start (id :: active) state) :
    (relay other id dependents retention result).runFrom state = (relay depth id dependents retention result).runFrom state ∧
      Proceeds plan start active ((relay depth id dependents retention result).runFrom state) := by
  obtain ⟨hsame, hnotified⟩ := notifyAll_proceeds hnotify dependents state h
  rw [relay, relay, Stateful.runFrom_bind, Stateful.runFrom_bind, Stateful.runFrom_attempt, Stateful.runFrom_attempt, hsame]
  refine ⟨rfl, ?_⟩
  generalize (notifyAll (fun dependent => processWithin depth dependent (some id) (some result)) dependents).runFrom state =
    notified at hnotified
  obtain ⟨outcome, after⟩ := notified
  rcases outcome with (cause | fault) | ⟨⟩
  · dsimp only
    obtain ⟨hsettles, -⟩ := @Ceased.settles σ after plan start active id result hnotified.ceased dependents retention hwiring
    rw [Stateful.runFrom_bind]
    generalize (settleResult id retention result).runFrom after = run at hsettles ⊢
    obtain ⟨failure | ⟨⟩, settled⟩ := run
    · exact hsettles.ceased.fails (hsettles.plain failure rfl)
    · exact hsettles.ceased.fails trivial
  · exact hnotified.ceased.fails (hnotified.plain _ rfl)
  · dsimp only
    have hgoing := hnotified.going () rfl
    obtain ⟨-, hsettles⟩ := @Ceased.settles σ after plan start active id result hnotified.ceased dependents retention hwiring
    have hsettles := hsettles hgoing
    rw [Stateful.runFrom_bind]
    generalize (settleResult id retention result).runFrom after = run at hsettles ⊢
    obtain ⟨failure | ⟨⟩, settled⟩ := run
    · exact hsettles.ceased.fails (hsettles.plain failure rfl)
    · exact .of_ok (hsettles.going () rfl)

/-- Notifications go no deeper than one level for each node, and one more. So a
    limit on the depth that is larger makes no difference. -/
theorem processWithin_proceeds : ∀ depth other id source input active (state : GraphState Node σ), plan.Line active →
    active.head? = source → input.isSome = source.isSome → Going plan start active state →
    plan.size < depth + active.length → plan.size < other + active.length →
    (processWithin other id source input).runFrom state = (processWithin depth id source input).runFrom state ∧
      Proceeds plan start active ((processWithin depth id source input).runFrom state) := by
  intro depth
  induction depth with
  | zero =>
    intro other id source input active state hline _ _ _ hdepth
    have hle := hline.length_le
    omega
  | succ depth ih =>
    intro other id source input active state hline hsource hinput h hdepth hother
    obtain ⟨other, rfl⟩ : ∃ fuel, other = fuel + 1 := Nat.exists_eq_add_one.mpr (by have hle := hline.length_le; omega)
    obtain ⟨hproceeds, hnext⟩ := h.receives hline hsource hinput
    rcases hrun : (onNode id (GraphNode.process source input)).runFrom state with ⟨failure | result, after⟩
    · rw [hrun] at hproceeds
      rw [runFrom_processWithin_of_error hrun, runFrom_processWithin_of_error hrun]
      exact ⟨rfl, hproceeds.ceased.fails (hproceeds.plain failure rfl)⟩
    rw [hrun] at hproceeds
    have hgoing := hproceeds.going result rfl
    cases result with
    | none =>
      rw [runFrom_processWithin_of_none hrun, runFrom_processWithin_of_none hrun]
      exact ⟨rfl, .of_ok hgoing⟩
    | some result =>
      have hline := hnext result after hrun
      obtain ⟨hsame, dependents, retention, hwiring⟩ := wiring_eq_of_onNode hrun
      rw [runFrom_processWithin_of_some hrun (hsame ▸ hwiring), runFrom_processWithin_of_some hrun (hsame ▸ hwiring)]
      have hplan : plan.wiring id = some (dependents, retention) := by
        rw [← h.idle_eq, Graph.wiring_idle]
        exact hwiring
      refine relay_proceeds (fun dependent state hstate => ?_) hplan
        (hgoing.processed (List.nodup_cons.mp hline.nodup).1 result)
      exact ih other dependent (some id) (some result) (id :: active) state hline rfl rfl hstate
        (by rw [List.length_cons]; omega) (by rw [List.length_cons]; omega)

end GraphM

end StagedArrays
