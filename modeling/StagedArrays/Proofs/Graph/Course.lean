import StagedArrays.Proofs.Graph.Journal

namespace StagedArrays

/-- One step of a run. A node is asked what it makes of a value, and the
    observer is told of its result; later the node is told that the result is
    done with and then the observer, or the result is kept. -/
inductive RunStep where
  | ask (id : NodeId) (source : Option NodeId) (input : Option Variable) (answer : Except GraphError (Option Variable))
  | pass (id : NodeId) (result : Variable)
  | complete (id : NodeId) (result : Variable) (outcome : Except GraphError Unit)
  | release (id : NodeId) (result : Variable)
  | keep (id : NodeId) (result : Variable)

namespace RunStep

/-- What the observer is told of a step. Of asking a node it is told nothing. -/
def told? : RunStep → Option Event
  | pass id result => some (.processed id result)
  | release id result => some (.released id result)
  | keep id result => some (.retained id result)
  | ask .. | complete .. => none

variable {ν σ : Type} [GraphNode ν]

/-- A step gets from one state of a graph at work to another. Each kind of step
    is one of the actions of a run. -/
def Leads (before after : GraphState ν σ) : RunStep → Prop
  | ask id source input answer =>
    (GraphM.onNode id (GraphNode.process source input)).runFrom before = (answer.mapError .error, after)
  | pass id result => after = before.noted (.processed id result)
  | complete id result outcome =>
    (GraphM.onNode id (GraphNode.complete result)).runFrom before = (outcome.mapError .error, after)
  | release id result => after = before.noted (.released id result)
  | keep id result => after = (⟨before.graph.keep id result, before.activity⟩ : GraphState ν σ).noted (.retained id result)

/-- Steps get from one state to another, one after the other. A run is such a
    path, whatever its outcome. -/
inductive Path : List RunStep → GraphState ν σ → GraphState ν σ → Prop
  | nil (state : GraphState ν σ) : Path [] state state
  | cons {step : RunStep} {steps : List RunStep} {before between after : GraphState ν σ} (hstep : step.Leads before between)
      (hsteps : Path steps between after) : Path (step :: steps) before after

variable {before between after : GraphState ν σ} {step : RunStep} {steps others : List RunStep}

/-- Two paths make one if the second begins where the first ends. The steps come
    in this order. -/
theorem Path.append (h : Path steps before between) (hothers : Path others between after) :
    Path (steps ++ others) before after := by
  induction h with
  | nil => exact hothers
  | cons hstep _ ih => exact .cons hstep (ih hothers)

theorem Path.single (h : step.Leads before after) : Path [step] before after := .cons h (.nil after)

/-- No step of a run changes how nodes are wired. -/
theorem Leads.wiring_eq (h : step.Leads before after) : after.graph.wiring = before.graph.wiring := by
  cases step with
  | ask id source input answer =>
    have hsame := GraphM.wiring_onNode id (GraphNode.process source input) before
    rwa [show (GraphM.onNode id _).runFrom before = _ from h] at hsame
  | complete id result outcome =>
    have hsame := GraphM.wiring_onNode id (GraphNode.complete result) before
    rwa [show (GraphM.onNode id _).runFrom before = _ from h] at hsame
  | pass id result =>
    obtain rfl := h
    rfl
  | release id result =>
    obtain rfl := h
    rfl
  | keep id result =>
    obtain rfl := h
    rfl

/-- No step changes the edges or what is retained. So these are the same along a
    whole path. -/
theorem Path.wiring_eq (h : Path steps before after) : after.graph.wiring = before.graph.wiring := by
  induction h with
  | nil => rfl
  | cons hstep _ ih => exact ih.trans hstep.wiring_eq

end RunStep

/-- How a result is settled: it is kept, or its node is told and then the
    observer. -/
def Retention.closing (id : NodeId) (result : Variable) : Retention → List RunStep
  | .free => [.complete id result (.ok ()), .release id result]
  | .output => [.keep id result]

/-- The course of a value: the nodes to take it are asked in turn, each of them
    together with all that comes of its result, up to the first failure. A
    result is settled after that, unless the node itself objects. -/
inductive Course (wiring : NodeId → Option (List NodeId × Retention)) :
    Option NodeId → Option Variable → List NodeId → List RunStep → Except GraphError Unit → Prop
  | done {source input} : Course wiring source input [] [] (.ok ())
  | refused {source input id rest} (cause : GraphError) :
      Course wiring source input (id :: rest) [.ask id source input (.error cause)] (.error cause)
  | absorbed {source input id rest steps outcome} (hrest : Course wiring source input rest steps outcome) :
      Course wiring source input (id :: rest) (.ask id source input (.ok none) :: steps) outcome
  | passed {source input id rest result dependents retention steps others outcome}
      (hwiring : wiring id = some (dependents, retention))
      (hdependents : Course wiring (some id) (some result) dependents steps (.ok ()))
      (hrest : Course wiring source input rest others outcome) :
      Course wiring source input (id :: rest)
        (.ask id source input (.ok (some result)) :: .pass id result :: (steps ++ (retention.closing id result ++ others)))
        outcome
  | failed {source input id rest result dependents retention steps cause}
      (hwiring : wiring id = some (dependents, retention))
      (hdependents : Course wiring (some id) (some result) dependents steps (.error cause)) :
      Course wiring source input (id :: rest)
        (.ask id source input (.ok (some result)) :: .pass id result :: (steps ++ retention.closing id result)) (.error cause)
  | unsettled {source input id rest result dependents steps outcome cause}
      (hwiring : wiring id = some (dependents, .free))
      (hdependents : Course wiring (some id) (some result) dependents steps outcome) :
      Course wiring source input (id :: rest)
        (.ask id source input (.ok (some result)) :: .pass id result :: (steps ++ [.complete id result (.error cause)]))
        (.error cause)

namespace Course

variable {wiring : NodeId → Option (List NodeId × Retention)} {source : Option NodeId} {input : Option Variable}
  {id : NodeId} {rest : List NodeId} {steps others : List RunStep} {outcome : Except GraphError Unit} {cause : GraphError}

theorem eq_nil (h : Course wiring source input [] steps outcome) : steps = [] ∧ outcome = .ok () := by
  cases h
  exact ⟨rfl, rfl⟩

/-- A node that does not fail, and then the others. -/
theorem cons (h : Course wiring source input [id] steps (.ok ())) (hrest : Course wiring source input rest others outcome) :
    Course wiring source input (id :: rest) (steps ++ others) outcome := by
  cases h with
  | absorbed hnone =>
    obtain ⟨rfl, -⟩ := hnone.eq_nil
    exact .absorbed hrest
  | passed hwiring hdependents hnone =>
    obtain ⟨rfl, -⟩ := hnone.eq_nil
    simp only [List.append_nil, List.cons_append, List.append_assoc]
    exact .passed hwiring hdependents hrest

/-- After a failure none of the others is asked. What has been asked before it
    is still settled. -/
theorem stop (h : Course wiring source input [id] steps (.error cause)) :
    Course wiring source input (id :: rest) steps (.error cause) := by
  cases h with
  | refused => exact .refused cause
  | absorbed hnone => cases hnone.eq_nil.2
  | passed _ _ hnone => cases hnone.eq_nil.2
  | failed hwiring hdependents => exact .failed hwiring hdependents
  | unsettled hwiring hdependents => exact .unsettled hwiring hdependents

/-- A result that is settled without objection. -/
theorem settled {result : Variable} {dependents : List NodeId} {retention : Retention}
    (hwiring : wiring id = some (dependents, retention))
    (hdependents : Course wiring (some id) (some result) dependents steps outcome) :
    Course wiring source input [id]
      (.ask id source input (.ok (some result)) :: .pass id result :: (steps ++ retention.closing id result)) outcome := by
  cases outcome with
  | error cause => exact .failed hwiring hdependents
  | ok u =>
    have hpassed := hdependents.passed hwiring (.done : Course wiring source input [] [] (.ok ()))
    rwa [List.append_nil] at hpassed

end Course

namespace GraphM

open RunStep (Path)

variable {ν σ : Type} [GraphNode ν] {wiring : NodeId → Option (List NodeId × Retention)} {source : Option NodeId}
  {input : Option Variable}

/-- If each node takes its course, so do all, up to the first that fails. -/
theorem notifyAll_course {notify : NodeId → GraphM ν σ Unit}
    (hnotify : ∀ id before outcome after, before.graph.wiring = wiring →
      (notify id).runFrom before = (outcome.mapError .error, after) →
      ∃ steps, Path steps before after ∧ Course wiring source input [id] steps outcome) :
    ∀ ids before outcome after, before.graph.wiring = wiring →
      (notifyAll notify ids).runFrom before = (outcome.mapError .error, after) →
      ∃ steps, Path steps before after ∧ Course wiring source input ids steps outcome := by
  intro ids
  induction ids with
  | nil =>
    intro before outcome after _ hrun
    rcases outcome with cause | ⟨⟩
    · cases hrun
    · cases hrun
      exact ⟨[], .nil _, .done⟩
  | cons id rest ih =>
    intro before outcome after hwiring hrun
    rw [notifyAll, Stateful.runFrom_bind] at hrun
    rcases hfirst : (notify id).runFrom before with ⟨(cause | fault) | ⟨⟩, between⟩
    · obtain ⟨steps, hpath, hcourse⟩ := hnotify id before (.error cause) between hwiring hfirst
      rw [hfirst] at hrun
      rcases outcome with found | ⟨⟩
      · cases hrun
        exact ⟨steps, hpath, hcourse.stop⟩
      · cases hrun
    · rw [hfirst] at hrun
      rcases outcome with found | ⟨⟩ <;> cases hrun
    · obtain ⟨steps, hpath, hcourse⟩ := hnotify id before (.ok ()) between hwiring hfirst
      rw [hfirst] at hrun
      obtain ⟨others, hothers, hrest⟩ := ih between outcome after (hpath.wiring_eq.trans hwiring) hrun
      exact ⟨steps ++ others, hpath.append hothers, hcourse.cons hrest⟩

/-- A result takes its course, and is settled however that ends. A failure is
    passed on after that. -/
theorem relay_course {depth : Nat} {id : NodeId} {dependents : List NodeId} {retention : Retention} {result : Variable}
    (hprocess : ∀ id source input before outcome after, before.graph.wiring = wiring →
      (processWithin depth id source input : GraphM ν σ Unit).runFrom before = (outcome.mapError .error, after) →
      ∃ steps, Path steps before after ∧ Course wiring source input [id] steps outcome)
    {before after : GraphState ν σ} {outcome : Except GraphError Unit} (hwiring : before.graph.wiring = wiring)
    (hrun : (relay depth id dependents retention result).runFrom before = (outcome.mapError .error, after)) :
    ∃ notified steps between, Path steps before between ∧ Course wiring (some id) (some result) dependents steps notified ∧
      ((Path (retention.closing id result) between after ∧ outcome = notified) ∨
        ∃ cause, retention = .free ∧ Path [.complete id result (.error cause)] between after ∧ outcome = .error cause) := by
  rw [relay, Stateful.runFrom_bind, Stateful.runFrom_attempt] at hrun
  rcases hnotify : (notifyAll (fun dependent => processWithin depth dependent (some id) (some result)) dependents).runFrom
    before with ⟨notified, between⟩
  rw [hnotify] at hrun
  -- a fault would have been passed on
  have hsettle : ∃ told : Except GraphError Unit, notified = told.mapError .error ∧
      (settleResult id retention result >>= fun _ => Stateful.settle notified).runFrom between = (outcome.mapError .error, after) := by
    rcases notified with (cause | fault) | ⟨⟩
    · exact ⟨.error cause, rfl, hrun⟩
    · rcases outcome with found | ⟨⟩ <;> cases hrun
    · exact ⟨.ok (), rfl, hrun⟩
  obtain ⟨told, rfl, hsettle⟩ := hsettle
  obtain ⟨steps, hpath, hcourse⟩ := notifyAll_course (fun dependent => hprocess dependent _ _) dependents before told between
    hwiring hnotify
  refine ⟨told, steps, between, hpath, hcourse, ?_⟩
  cases retention with
  | output =>
    have hkeep : (settleResult id .output result).runFrom between =
        (.ok (), (⟨between.graph.keep id result, between.activity⟩ : GraphState ν σ).noted (.retained id result)) := rfl
    rw [Stateful.runFrom_bind_of_ok hkeep, Stateful.runFrom_settle] at hsettle
    obtain ⟨houtcome, rfl⟩ := Prod.mk.inj hsettle
    exact .inl ⟨.single rfl, by cases told <;> cases outcome <;> cases houtcome <;> rfl⟩
  | free =>
    rw [Stateful.runFrom_bind, settleResult, Stateful.runFrom_bind] at hsettle
    rcases hcomplete : (onNode id (GraphNode.complete result)).runFrom between with ⟨(cause | fault) | ⟨⟩, completed⟩
    · rw [hcomplete] at hsettle
      obtain ⟨houtcome, rfl⟩ := Prod.mk.inj hsettle
      exact .inr ⟨cause, rfl, .single hcomplete, by cases outcome <;> cases houtcome; rfl⟩
    · rw [hcomplete] at hsettle
      rcases outcome with found | ⟨⟩ <;> cases hsettle
    · rw [hcomplete] at hsettle
      dsimp only at hsettle
      rw [runFrom_note] at hsettle
      dsimp only at hsettle
      rw [Stateful.runFrom_settle] at hsettle
      obtain ⟨houtcome, rfl⟩ := Prod.mk.inj hsettle
      exact .inl ⟨.cons hcomplete (.single rfl), by cases told <;> cases outcome <;> cases houtcome <;> rfl⟩

/-- A value that a node is asked to take takes its course. By induction on how
    deep notifications may go. -/
theorem processWithin_course (depth : Nat) : ∀ id source input before outcome after, before.graph.wiring = wiring →
    (processWithin depth id source input : GraphM ν σ Unit).runFrom before = (outcome.mapError .error, after) →
    ∃ steps, Path steps before after ∧ Course wiring source input [id] steps outcome := by
  induction depth with
  | zero =>
    intro id source input before outcome after _ hrun
    rcases outcome with cause | ⟨⟩ <;> cases hrun
  | succ depth ih =>
    intro id source input before outcome after hwiring hrun
    rcases hnode : (onNode id (GraphNode.process source input)).runFrom before with ⟨(cause | fault) | result, asked⟩
    · rw [runFrom_processWithin_of_error hnode] at hrun
      obtain ⟨houtcome, rfl⟩ := Prod.mk.inj hrun
      obtain rfl : outcome = .error cause := by cases outcome <;> cases houtcome; rfl
      have hasked : (RunStep.ask id source input (.error cause)).Leads before asked := hnode
      exact ⟨_, .single hasked, .refused cause⟩
    · rw [runFrom_processWithin_of_error hnode] at hrun
      rcases outcome with found | ⟨⟩ <;> cases hrun
    · cases result with
      | none =>
        rw [runFrom_processWithin_of_none hnode] at hrun
        obtain ⟨houtcome, rfl⟩ := Prod.mk.inj hrun
        obtain rfl : outcome = .ok () := by cases outcome <;> cases houtcome; rfl
        have hasked : (RunStep.ask id source input (.ok none)).Leads before asked := hnode
        exact ⟨_, .single hasked, .absorbed .done⟩
      | some result =>
        obtain ⟨hsame, dependents, retention, hfound⟩ := wiring_eq_of_onNode hnode
        rw [runFrom_processWithin_of_some hnode (hsame ▸ hfound)] at hrun
        rw [hwiring] at hsame hfound
        have hnoted : (asked.noted (.processed id result)).graph.wiring = wiring := hsame
        obtain ⟨notified, steps, between, hpath, hcourse, hsettled⟩ := relay_course ih hnoted hrun
        have hfirst : Path [.ask id source input (.ok (some result)), .pass id result] before
            (asked.noted (.processed id result)) := .cons hnode (.single rfl)
        rcases hsettled with ⟨hclosing, rfl⟩ | ⟨cause, rfl, hcomplete, rfl⟩
        · exact ⟨_, hfirst.append (hpath.append hclosing), .settled hfound hcourse⟩
        · exact ⟨_, hfirst.append (hpath.append hcomplete), .unsettled hfound hcourse⟩

end GraphM

end StagedArrays
