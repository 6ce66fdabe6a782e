import StagedArrays.Context.Definition
import StagedArrays.Proofs.Context.Guards

namespace StagedArrays

/-- Code that uses contexts, as a tree of what it does next: it ends, enters a
    context, drops a guard, does something that leaves the entered contexts
    alone, or runs code of its own in a context or as the body of a function. It
    sees whether what it asked for failed; a drop that is refused ends it. -/
inductive Body (σ : Type) : Type → Type 1
  | finish {α : Type} (outcome : Except (Failure ValueError) α) : Body σ α
  | enter {α : Type} (context : Context) (next : Guard → Body σ α) : Body σ α
  | drop {α : Type} (guard : Guard) (next : Body σ α) : Body σ α
  | perform {α β : Type} (action : Action σ β) (stays : Stateful.Moves World.Stays action)
      (next : Except (Failure ValueError) β → Body σ α) : Body σ α
  | within {α β : Type} (context : Context) (body : Body σ β)
      (next : Except (Failure ValueError) β → Body σ α) : Body σ α
  | define {α : Type} (id : EmitterId) (function : FunctionDeclaration)
      (body : List Value → Body σ (Option Value)) (next : Except (Failure ValueError) Unit → Body σ α) : Body σ α

namespace Body

variable {σ α : Type} {base : List Context} {own : List Guard} {world : World σ}

/-- What a body does. Guards may be dropped in any order, which is what the
    results are about. -/
def run {α : Type} : Body σ α → Action σ α
  | .finish outcome => Stateful.settle outcome
  | .enter context next => do (next (← Action.enter context)).run
  | .drop guard next => do
    Action.leave guard
    next.run
  | .perform action _ next => do (next (← Stateful.attempt action)).run
  | .within context body next => do (next (← Stateful.attempt (Action.withContext context body.run))).run
  | .define id function body next => do
    (next (← Stateful.attempt (Action.defineFunction id function fun parameters => (body parameters).run))).run

/-- What may be asked of a point of a run: of what is left to do there, the
    contexts that were entered when the code began, the guards of its own that
    it has still to drop, the last one first, and the world. -/
abbrev Rule (σ : Type) := {α : Type} → Body σ α → List Context → List Guard → World σ → Prop

/-- A rule holds at every point of a run, and of the runs nested in it. Nested
    runs have guards of their own. -/
def Along {α : Type} (rule : Rule σ) (body : Body σ α) (base : List Context) (own : List Guard)
    (world : World σ) : Prop :=
  rule body base own world ∧
    match body with
    | .finish _ => True
    | .enter context next => ∀ guard after, (Action.enter context).runFrom world = (.ok guard, after) →
        (next guard).Along rule base (guard :: own) after
    | .drop guard next => ∀ after, (Action.leave guard).runFrom world = (.ok (), after) →
        next.Along rule base (own.erase guard) after
    | .perform action _ next => ∀ outcome after, action.runFrom world = (outcome, after) →
        (next outcome).Along rule base own after
    | .within context body next =>
      body.Along rule (context :: world.contexts) [] { world with contexts := context :: world.contexts } ∧
        ∀ outcome after, (Action.withContext context body.run).runFrom world = (outcome, after) →
          (next outcome).Along rule base own after
    | .define id function body next =>
      (∀ parameters started,
        (Action.onEmitter id (Emitter.startFunction function)).runFrom world = (.ok parameters, started) →
          (body parameters).Along rule (.emitter id :: world.contexts) []
            { started with contexts := .emitter id :: world.contexts }) ∧
        ∀ outcome after,
          (Action.defineFunction id function fun parameters => (body parameters).run).runFrom world =
            (outcome, after) →
          (next outcome).Along rule base own after

/-- Only the last guard still there is dropped, and none is left in the end.
    This is what scopes do by themselves. -/
def InOrder : Rule σ
  | _, .finish _, _, own, _ => own = []
  | _, .drop guard _, _, own, _ => own.head? = some guard
  | _, _, _, _, _ => True

/-- On top of the contexts at the beginning are those of one's own guards, each
    at its depth. -/
def Stacked (base : List Context) : List Guard → List Context → Prop
  | [], contexts => contexts = base
  | guard :: own, contexts => ∃ context below,
      contexts = context :: below ∧ guard.depth = contexts.length ∧ Stacked base own below

/-- The contexts of the code's own guards are the only ones above those at the
    beginning. -/
def OnTop : Rule σ := fun _ base own world => Stacked base own world.contexts

end Body

namespace Action

variable {σ α : Type} {world : World σ}

/-- What is left of a definition once its body has ended. It is done with the
    context of the emitter left already. -/
def endDefinition (id : EmitterId) (outcome : Except (Failure ValueError) (Option Operand)) : Action σ Unit :=
  match outcome with
  | .error (.fault fault) => throw (.fault fault)
  | _ => onEmitter id (Emitter.endFunction outcome)

theorem stays_onEmitter (id : EmitterId) (action : EmitterM α) :
    Stateful.Moves World.Stays (onEmitter id action : Action σ α) := fun _ => rfl

/-- Ending a definition changes emitters only, never the stack of contexts. -/
theorem stays_endDefinition (id : EmitterId) (outcome : Except (Failure ValueError) (Option Operand)) :
    Stateful.Moves World.Stays (endDefinition id outcome : Action σ Unit) := by
  rcases outcome with (cause | fault) | operand
  · exact stays_onEmitter id _
  · exact .throw _
  · exact stays_onEmitter id _

/-- A definition whose function cannot be started runs nothing. No context has
    been entered by then. -/
theorem runFrom_defineFunction_of_error {id : EmitterId} {function : FunctionDeclaration}
    {body : List Value → Action σ (Option Value)} {failure : Failure ValueError} {started : World σ}
    (h : (onEmitter id (Emitter.startFunction function)).runFrom world = (.error failure, started)) :
    (defineFunction id function body).runFrom world = (.error failure, started) :=
  Stateful.runFrom_bind_of_error h _

/-- A definition runs its body under the emitter, if the body leaves the emitter
    on top. -/
theorem runFrom_defineFunction_of_length_eq {id : EmitterId} {function : FunctionDeclaration}
    {body : List Value → Action σ (Option Value)} {parameters : List Value} {started inner : World σ}
    {outcome : Except (Failure ValueError) (Option Operand)}
    (hstart : (onEmitter id (Emitter.startFunction function)).runFrom world = (.ok parameters, started))
    (hbody : (do
      let result ← body parameters
      onEmitter id (Emitter.resultOperand function result)).runFrom
        { started with contexts := .emitter id :: started.contexts } = (outcome, inner))
    (hlength : inner.contexts.length = started.contexts.length + 1) :
    (defineFunction id function body).runFrom world =
      (endDefinition id outcome).runFrom { inner with contexts := inner.contexts.tail } := by
  unfold defineFunction
  rw [Stateful.runFrom_bind_of_ok hstart, Stateful.runFrom_bind, Stateful.runFrom_attempt,
    runFrom_withContext_of_length_eq hbody hlength]
  rcases outcome with (cause | fault) | operand <;> rfl

end Action

namespace Body

variable {σ α : Type} {base : List Context} {own : List Guard} {world : World σ}

/-- The last guard leaves its context, and the one before is the last from then
    on. -/
theorem Stacked.runFrom_leave {guard : Guard} (h : Stacked base (guard :: own) world.contexts) :
    (Action.leave guard).runFrom world = (.ok (), { world with contexts := world.contexts.tail }) ∧
      Stacked base own world.contexts.tail := by
  obtain ⟨context, below, hcontexts, hdepth, hbelow⟩ := h
  exact ⟨Action.runFrom_leave_of_length_eq hdepth.symm, by rwa [hcontexts, List.tail_cons]⟩

/-- Code that drops its guards in order, and ran with the contexts of its own
    guards on top, ends with the contexts there were at the beginning. -/
def Restores (body : Body σ α) : Prop :=
  ∀ ⦃base own world⦄, body.Along InOrder base own world → Stacked base own world.contexts →
    body.Along OnTop base own world ∧ (body.run.runFrom world).2.contexts = base

/-- The code starts with an empty list of guards, and the contexts it finds are
    those it has to leave. -/
theorem Restores.contexts_eq {body : Body σ α} (h : body.Restores) {contexts : List Context}
    (horder : body.Along InOrder contexts [] { world with contexts }) :
    (body.run.runFrom { world with contexts }).2.contexts = contexts :=
  (h horder rfl).2

/-- A body that drops its guards in order drops the one on top each time. What
    lies below on the stack does not matter. -/
theorem Restores.along {body : Body σ α} (h : body.Restores) {contexts : List Context}
    (horder : body.Along InOrder contexts [] { world with contexts }) :
    body.Along OnTop contexts [] { world with contexts } :=
  (h horder rfl).1

/-- A body that has ended has nothing left to restore. -/
theorem restores_finish (outcome : Except (Failure ValueError) α) : (finish outcome : Body σ α).Restores := by
  rintro base own world ⟨(rfl : own = []), -⟩ hstacked
  refine ⟨⟨hstacked, trivial⟩, ?_⟩
  rw [run, Stateful.runFrom_settle]
  exact hstacked

/-- Entering a context is matched by the drop of its guard, which the rest of
    the body is shown to reach with the stack it was handed. -/
theorem restores_enter (context : Context) {next : Guard → Body σ α} (hnext : ∀ guard, (next guard).Restores) :
    (enter context next).Restores := by
  rintro base own world ⟨-, horder⟩ hstacked
  have henter : (Action.enter context).runFrom world =
    (.ok ⟨world.contexts.length + 1⟩, { world with contexts := context :: world.contexts }) := rfl
  have hpushed : Stacked base (⟨world.contexts.length + 1⟩ :: own) (context :: world.contexts) :=
    ⟨context, world.contexts, rfl, rfl, hstacked⟩
  obtain ⟨halong, hcontexts⟩ := hnext _ (horder _ _ henter) hpushed
  refine ⟨⟨hstacked, fun guard after h => ?_⟩, ?_⟩
  · cases henter.symm.trans h
    exact halong
  · rw [run, Stateful.runFrom_bind_of_ok henter]
    exact hcontexts

/-- A guard that is dropped early takes its own context with it, and what
    remains is restored as before. -/
theorem restores_drop (guard : Guard) {next : Body σ α} (hnext : next.Restores) : (drop guard next).Restores := by
  rintro base own world ⟨hlast, horder⟩ hstacked
  cases own with
  | nil => cases hlast
  | cons last own =>
    obtain rfl : last = guard := Option.some.inj hlast
    obtain ⟨hleave, htail⟩ := hstacked.runFrom_leave
    have hrest := horder _ hleave
    rw [List.erase_cons_head] at hrest
    obtain ⟨halong, hcontexts⟩ := hnext hrest htail
    refine ⟨⟨hstacked, fun after h => ?_⟩, ?_⟩
    · cases hleave.symm.trans h
      rwa [List.erase_cons_head]
    · rw [run, Stateful.runFrom_bind_of_ok hleave]
      exact hcontexts

/-- Code goes on from whatever leaves the entered contexts alone, with all that
    is known of them. -/
theorem restores_after {β : Type} {action : Action σ β} {next : Except (Failure ValueError) β → Body σ α}
    (hnext : ∀ outcome, (next outcome).Restores)
    (hstays : world.Stays (action.runFrom world).2)
    (horder : ∀ outcome after, action.runFrom world = (outcome, after) → (next outcome).Along InOrder base own after)
    (hstacked : Stacked base own world.contexts) :
    (∀ outcome after, action.runFrom world = (outcome, after) → (next outcome).Along OnTop base own after) ∧
      ((Stateful.attempt action >>= fun outcome => (next outcome).run).runFrom world).2.contexts = base := by
  rcases hrun : action.runFrom world with ⟨outcome, after⟩
  rw [hrun] at hstays
  obtain ⟨halong, hcontexts⟩ := hnext outcome (horder outcome after hrun) (hstays.symm ▸ hstacked)
  refine ⟨fun outcome' after' h => ?_, ?_⟩
  · cases h
    exact halong
  · rw [Stateful.runFrom_bind, Stateful.runFrom_attempt, hrun]
    exact hcontexts

/-- An action that leaves the contexts alone does not disturb the nesting. What
    comes after it goes on from its outcome. -/
theorem restores_perform {β : Type} (action : Action σ β) (hstays : Stateful.Moves World.Stays action)
    {next : Except (Failure ValueError) β → Body σ α} (hnext : ∀ outcome, (next outcome).Restores) :
    (perform action hstays next).Restores := by
  rintro base own world ⟨-, horder⟩ hstacked
  obtain ⟨halong, hcontexts⟩ := restores_after hnext (hstays world) horder hstacked
  exact ⟨⟨hstacked, halong⟩, hcontexts⟩

/-- What code in order does under a context it does with this context on top,
    and the context is left. -/
theorem Restores.runFrom_withContext {body : Body σ α} (h : body.Restores) {context : Context}
    (horder : body.Along InOrder (context :: world.contexts) []
      { world with contexts := context :: world.contexts }) :
    (Action.withContext context body.run).runFrom world =
      ((body.run.runFrom { world with contexts := context :: world.contexts }).1,
        { (body.run.runFrom { world with contexts := context :: world.contexts }).2 with
          contexts := world.contexts }) := by
  have hcontexts := h.contexts_eq horder
  rcases hrun : body.run.runFrom { world with contexts := context :: world.contexts } with ⟨outcome, inner⟩
  rw [hrun] at hcontexts
  have hlength : inner.contexts.length = world.contexts.length + 1 := by rw [hcontexts, List.length_cons]
  rw [Action.runFrom_withContext_of_length_eq hrun hlength, hcontexts, List.tail_cons]

/-- A nested body gives back the stack it found, whether it succeeds or fails.
    What follows it therefore starts from the stack of the outer body. -/
theorem restores_within {β : Type} (context : Context) {body : Body σ β} (hbody : body.Restores)
    {next : Except (Failure ValueError) β → Body σ α} (hnext : ∀ outcome, (next outcome).Restores) :
    (within context body next).Restores := by
  rintro base own world ⟨-, hinside, horder⟩ hstacked
  have hstays : world.Stays ((Action.withContext context body.run).runFrom world).2 := by
    rw [hbody.runFrom_withContext hinside]
    rfl
  obtain ⟨halong, hcontexts⟩ := restores_after hnext hstays horder hstacked
  exact ⟨⟨hstacked, hbody.along hinside, halong⟩, hcontexts⟩

/-- What code in order does as the body of a function it does with the emitter
    on top, and the emitter is left before the function is ended. -/
theorem Restores.runFrom_defineFunction {id : EmitterId} {function : FunctionDeclaration}
    {body : List Value → Body σ (Option Value)} {parameters : List Value} {started : World σ}
    (h : (body parameters).Restores)
    (hstart : (Action.onEmitter id (Emitter.startFunction function)).runFrom world = (.ok parameters, started))
    (horder : (body parameters).Along InOrder (.emitter id :: world.contexts) []
      { started with contexts := .emitter id :: world.contexts }) :
    ∃ outcome inner,
      (do
        let result ← (body parameters).run
        Action.onEmitter id (Emitter.resultOperand function result)).runFrom
          { started with contexts := .emitter id :: world.contexts } = (outcome, inner) ∧
      inner.contexts = .emitter id :: world.contexts ∧
      (Action.defineFunction id function fun parameters => (body parameters).run).runFrom world =
        (Action.endDefinition id outcome).runFrom { inner with contexts := world.contexts } := by
  have hstarted : started.contexts = world.contexts := by
    have hstays := Action.stays_onEmitter id (Emitter.startFunction function) world
    rw [hstart] at hstays
    exact hstays
  rcases hrun : (do
    let result ← (body parameters).run
    Action.onEmitter id (Emitter.resultOperand function result)).runFrom
      { started with contexts := .emitter id :: world.contexts } with ⟨outcome, inner⟩
  have hinner : inner.contexts = .emitter id :: world.contexts := by
    rw [← h.contexts_eq horder]
    rw [Stateful.runFrom_bind] at hrun
    rcases hbody : (body parameters).run.runFrom { started with contexts := .emitter id :: world.contexts } with
      ⟨failure | result, ended⟩
    · rw [hbody] at hrun
      cases hrun
      rfl
    · rw [hbody] at hrun
      exact (congrArg (fun pair => pair.2.contexts) hrun).symm
  have hlength : inner.contexts.length = started.contexts.length + 1 := by
    rw [hinner, hstarted, List.length_cons]
  refine ⟨outcome, inner, hrun, hinner, ?_⟩
  rw [Action.runFrom_defineFunction_of_length_eq hstart (hstarted ▸ hrun) hlength, hinner, List.tail_cons]

/-- A definition whose body is in order leaves the contexts as they were, also
    if there is nothing to start. -/
theorem stays_defineFunction {id : EmitterId} {function : FunctionDeclaration}
    {body : List Value → Body σ (Option Value)} (hbody : ∀ parameters, (body parameters).Restores)
    (horder : ∀ parameters started,
      (Action.onEmitter id (Emitter.startFunction function)).runFrom world = (.ok parameters, started) →
        (body parameters).Along InOrder (.emitter id :: world.contexts) []
          { started with contexts := .emitter id :: world.contexts }) :
    world.Stays ((Action.defineFunction id function fun parameters => (body parameters).run).runFrom world).2 := by
  have hstays := Action.stays_onEmitter id (Emitter.startFunction function) world
  rcases hstart : (Action.onEmitter id (Emitter.startFunction function)).runFrom world with
    ⟨failure | parameters, started⟩
  · rw [hstart] at hstays
    rw [Action.runFrom_defineFunction_of_error hstart]
    exact hstays
  · obtain ⟨outcome, inner, -, -, heq⟩ :=
      (hbody parameters).runFrom_defineFunction hstart (horder parameters started hstart)
    rw [heq]
    exact Action.stays_endDefinition id outcome { inner with contexts := world.contexts }

/-- The definition of a function enters the context of its emitter and leaves it
    again on every outcome of the body. -/
theorem restores_define (id : EmitterId) (function : FunctionDeclaration)
    {body : List Value → Body σ (Option Value)} (hbody : ∀ parameters, (body parameters).Restores)
    {next : Except (Failure ValueError) Unit → Body σ α} (hnext : ∀ outcome, (next outcome).Restores) :
    (define id function body next).Restores := by
  rintro base own world ⟨-, hinside, horder⟩ hstacked
  obtain ⟨halong, hcontexts⟩ := restores_after hnext (stays_defineFunction hbody hinside) horder hstacked
  exact ⟨⟨hstacked, fun parameters started hstart => (hbody parameters).along (hinside parameters started hstart),
    halong⟩, hcontexts⟩

/-- Every body restores the stack of contexts, by induction on the body. A
    failing operation inside is no exception, since the guard of the scope is
    dropped on the way out. -/
theorem restores (body : Body σ α) : body.Restores := by
  induction body with
  | finish outcome => exact restores_finish outcome
  | enter context next ih => exact restores_enter context ih
  | drop guard next ih => exact restores_drop guard ih
  | perform action stays next ih => exact restores_perform action stays ih
  | within context body next hbody hnext => exact restores_within context hbody hnext
  | define id function body next hbody hnext => exact restores_define id function hbody hnext

/-- Whatever is entered and dropped in whatever order, guards that are still
    there have depths of their own, at which their contexts are, and each can
    only take off its own context. What runs under a context, or as the body of
    a function, and drops its guards in order, runs with this context on top of
    those before, below its own ones alone, and leaves those before however it
    ends. -/
theorem guards_pop_own (σ : Type) :
    (∀ (world : World σ) (s : Occupancy σ), world.contexts = [] → Occupancy.Reaches { world } s →
      s.Placed ∧ ∀ held ∈ s.live, s.PopsOwn held) ∧
    (∀ (α : Type) (context : Context) (body : Body σ α) (world : World σ),
      body.Along InOrder (context :: world.contexts) [] { world with contexts := context :: world.contexts } →
      body.Along OnTop (context :: world.contexts) [] { world with contexts := context :: world.contexts } ∧
        ∃ outcome inner, body.run.runFrom { world with contexts := context :: world.contexts } = (outcome, inner) ∧
          inner.contexts = context :: world.contexts ∧
          (Action.withContext context body.run).runFrom world =
            (outcome, { inner with contexts := world.contexts })) ∧
    (∀ (id : EmitterId) (function : FunctionDeclaration) (body : List Value → Body σ (Option Value))
        (world : World σ),
      (∀ parameters started,
        (Action.onEmitter id (Emitter.startFunction function)).runFrom world = (.ok parameters, started) →
        (body parameters).Along InOrder (.emitter id :: world.contexts) []
          { started with contexts := .emitter id :: world.contexts }) →
      ((Action.defineFunction id function fun parameters => (body parameters).run).runFrom world).2.contexts =
          world.contexts ∧
        ∀ parameters started,
          (Action.onEmitter id (Emitter.startFunction function)).runFrom world = (.ok parameters, started) →
          (body parameters).Along OnTop (.emitter id :: world.contexts) []
              { started with contexts := .emitter id :: world.contexts } ∧
            ∃ outcome inner,
              (do
                let result ← (body parameters).run
                Action.onEmitter id (Emitter.resultOperand function result)).runFrom
                  { started with contexts := .emitter id :: world.contexts } = (outcome, inner) ∧
              inner.contexts = .emitter id :: world.contexts ∧
              (Action.defineFunction id function fun parameters => (body parameters).run).runFrom world =
                (Action.endDefinition id outcome).runFrom { inner with contexts := world.contexts }) := by
  refine ⟨fun world s hcontexts hrun => ?_, fun α context body world horder => ?_,
    fun id function body world horder => ?_⟩
  · have hplaced := (Occupancy.placed_of_contexts_eq_nil hcontexts).reaches hrun
    exact ⟨hplaced, fun held hlive => hplaced.popsOwn hlive⟩
  · exact ⟨body.restores.along horder, _, _, rfl, body.restores.contexts_eq horder,
      body.restores.runFrom_withContext horder⟩
  · refine ⟨stays_defineFunction (fun parameters => (body parameters).restores) horder,
      fun parameters started hstart => ?_⟩
    have hinside := horder parameters started hstart
    exact ⟨(body parameters).restores.along hinside, (body parameters).restores.runFrom_defineFunction hstart hinside⟩

/-- The simplest code in order: it enters a context, leaves it, and ends. -/
theorem inOrder_pass (context : Context) (outcome : Except (Failure ValueError) α) :
    Along InOrder (.enter context fun guard => .drop guard (.finish outcome)) base [] world :=
  ⟨trivial, fun guard _ _ => ⟨rfl, fun _ _ => ⟨List.erase_cons_head guard [], trivial⟩⟩⟩

/-- Two contexts are entered and the outer one's guard is dropped first, which
    is refused: the inner one's guard still takes off its own context. A body
    that enters a context of its own and fails leaves nothing behind. -/
theorem guards_pop_own_abandoned :
    (∃ s : Occupancy Unit, Occupancy.Reaches { world := { client := () } } s ∧
      s.live = [⟨⟨2⟩, ⟨1, .emitter ⟨0⟩⟩⟩] ∧ s.Placed ∧ s.PopsOwn ⟨⟨2⟩, ⟨1, .emitter ⟨0⟩⟩⟩) ∧
    (let body : Body Unit Unit := .enter .compute fun guard => .drop guard (.finish (.error (.error .noActiveContext)))
     ((Action.withContext (.emitter ⟨0⟩) body.run).runFrom { client := () }).2.contexts = []) ∧
    (let body : List Value → Body Unit (Option Value) := fun _ =>
       .enter .compute fun guard => .drop guard (.finish (.ok none))
     ((Action.defineFunction ⟨0⟩ { name := "f" } fun parameters => (body parameters).run).runFrom
       { emitters := #[{ moduleName := "m", config := {} }], client := () }).2.contexts = []) := by
  obtain ⟨hsequence, hwithin, hdefine⟩ := guards_pop_own Unit
  refine ⟨?_, ?_, ?_⟩
  · have hone : Occupancy.Reaches { world := { client := () } }
        { world := { contexts := [.compute], client := () }, entries := [⟨0, .compute⟩],
          live := [⟨⟨1⟩, ⟨0, .compute⟩⟩], count := 1 } := .step (.refl _) (.enter rfl)
    have htwo : Occupancy.Reaches { world := { client := () } }
        { world := { contexts := [.emitter ⟨0⟩, .compute], client := () },
          entries := [⟨1, .emitter ⟨0⟩⟩, ⟨0, .compute⟩],
          live := [⟨⟨2⟩, ⟨1, .emitter ⟨0⟩⟩⟩, ⟨⟨1⟩, ⟨0, .compute⟩⟩], count := 2 } := hone.step (.enter rfl)
    have hdropped : (⟨⟨1⟩, ⟨0, .compute⟩⟩ : LiveGuard) ∈
        [(⟨⟨2⟩, ⟨1, .emitter ⟨0⟩⟩⟩ : LiveGuard), ⟨⟨1⟩, ⟨0, .compute⟩⟩] := .tail _ (.head _)
    have hthree := htwo.step (.refuse hdropped rfl)
    obtain ⟨hplaced, hpops⟩ := hsequence _ _ rfl hthree
    exact ⟨_, hthree, rfl, hplaced, hpops _ (.head _)⟩
  · obtain ⟨-, _, _, hrun, -, heq⟩ := hwithin Unit (.emitter ⟨0⟩)
      (.enter .compute fun guard => .drop guard (.finish (.error (.error .noActiveContext)))) { client := () }
      (inOrder_pass _ _)
    exact congrArg (fun pair => pair.2.contexts) heq
  · exact (hdefine ⟨0⟩ { name := "f" } (fun _ => .enter .compute fun guard => .drop guard (.finish (.ok none)))
      { emitters := #[{ moduleName := "m", config := {} }], client := () }
      fun _ _ _ => inOrder_pass _ _).1

end Body

end StagedArrays
