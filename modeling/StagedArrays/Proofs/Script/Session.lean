import StagedArrays.Proofs.Script.Journal
import StagedArrays.Proofs.Script.Parameters

namespace StagedArrays

namespace Emitter

variable {emitter : Emitter} {function : FunctionDeclaration}

/-- A function starts unless another is in progress, or its parameters cannot be
    bound. -/
theorem runFrom_startFunction (emitter : Emitter) (function : FunctionDeclaration) :
    (∃ failure, (startFunction function).runFrom emitter = (.error failure, emitter)) ∨
      ∃ parameters builder, emitter.current = none ∧
        FunctionBuilder.start function emitter.moduleName = .ok (parameters, builder) ∧
        (startFunction function).runFrom emitter =
          (.ok parameters, { emitter with current := some builder, scope := emitter.scope + 1 }) := by
  cases hcurrent : emitter.current with
  | some builder =>
    refine .inl ⟨.error (.invalidArgument .nestedDefinition), ?_⟩
    simp [startFunction, Stateful.runFrom_bind, hcurrent]
  | none =>
    cases hstart : FunctionBuilder.start function emitter.moduleName with
    | error failure =>
      refine .inl ⟨failure, ?_⟩
      simp [startFunction, Stateful.runFrom_bind, hcurrent, hstart]
    | ok started =>
      obtain ⟨parameters, builder⟩ := started
      refine .inr ⟨parameters, builder, rfl, rfl, ?_⟩
      simp [startFunction, Stateful.runFrom_bind, hcurrent, hstart]

/-- Without a function in progress there is nothing to end. This is an error. -/
theorem runFrom_endFunction_of_none (hcurrent : emitter.current = none)
    (outcome : Except (Failure ValueError) (Option Operand)) :
    (endFunction outcome).runFrom emitter = (.error (.error (.invalidArgument .noOpenFunction)), emitter) := by
  unfold endFunction
  rw [Stateful.runFrom_bind_of_error (runFrom_builder_of_none hcurrent)]

/-- A body that fails ends its function without recording it. The failure is
    passed on. -/
theorem runFrom_endFunction_of_error (emitter : Emitter) (builder : FunctionBuilder) (failure : Failure ValueError) :
    (endFunction (.error failure)).runFrom (emitter.emitting builder) = (.error failure, emitter.cleared) := by
  unfold endFunction
  rw [Stateful.runFrom_bind_of_ok (runFrom_builder rfl)]
  rfl

/-- A function whose loops are all closed is recorded. It comes after those
    recorded before. -/
theorem runFrom_endFunction_of_ok {builder : FunctionBuilder} (hblocks : builder.blocks = [#[]]) (emitter : Emitter)
    (f : Fragment) (operand : Option Operand) :
    (endFunction (.ok operand)).runFrom (emitter.emitting (builder.extend f)) =
      (.ok (), { emitter.cleared with functions := emitter.functions.push (builder.finished f operand) }) := by
  unfold endFunction
  rw [Stateful.runFrom_bind_of_ok (runFrom_builder rfl)]
  simp [Stateful.settle, Stateful.runFrom_bind, FunctionBuilder.finish_extend hblocks, emitting, cleared]

end Emitter

namespace Journal

variable {id watched : EmitterId} {world : World Journal}

/-- The body of a definition in full: it is run with a fresh draft, its outcome
    is noted, and the function is closed with its result or dropped with its
    error. -/
theorem runFrom_body (function : FunctionDeclaration) (action : List Value → Action Journal (Option Value))
    (parameters : List Value) (world : World Journal) :
    (body id function action parameters).runFrom world =
      match (action parameters).runFrom (world.amended id ({ · with draft := { declared := function, parameters } })) with
      | (.error failure, after) => (.error failure, after)
      | (.ok result, after) => (.ok result, after.amended id (·.extend [.returned result
          ((after.emitterAt id).codeUntil
            ((Emitter.resultOperand function result).runFrom (after.emitterAt id)).2)])) := by
  simp only [body, Stateful.runFrom_bind, runFrom_amend, Stateful.runFrom_get, runFrom_note, Stateful.runFrom_pure]
  rcases (action parameters).runFrom _ with ⟨failure | result, after⟩ <;> rfl

/-- Entering and leaving contexts is no matter of the emitters. The body is what
    counts. -/
theorem leads_withContext {α : Type} {context : Context} {body : Action Journal α}
    (h : ∀ world, World.Leads watched world (body.runFrom world)) :
    world.Leads watched ((Action.withContext context body).runFrom world) := by
  have hbody := h { world with contexts := context :: world.contexts }
  have hcases := Action.runFrom_withContext context body world
  rcases hrun : body.runFrom { world with contexts := context :: world.contexts } with ⟨outcome, inner⟩
  rw [hrun] at hbody hcases
  rcases hcases with heq | ⟨fault, contexts, heq⟩
  · rw [heq]
    exact ⟨hbody.documented, hbody.proceeds⟩
  · rw [heq]
    exact ⟨hbody.documented, fun hfault => (hfault fault rfl).elim⟩

/-- How the body of a function ends, its result included, for which an emitter
    is asked. -/
structure Ended (id : EmitterId) (function : FunctionDeclaration) (parameters : List Value) (world after : World Journal)
    (outcome : Except (Failure ValueError) (Option Operand)) : Prop where
  documented : world.Documented id → after.Documented id
  idle : (∀ fault, outcome ≠ .error (.fault fault)) → (world.emitterAt id).current = none →
    (after.emitterAt id).current = none
  emitting : (∀ fault, outcome ≠ .error (.fault fault)) → ∀ builder, (world.emitterAt id).current = some builder →
    (after.client id).recorded = (world.client id).recorded ∧
      ∃ f, after.emitterAt id = (world.emitterAt id).emitting (builder.extend f)
  recorded : ∀ operand, outcome = .ok operand → ∀ builder, (world.emitterAt id).current = some builder →
    FunctionBuilder.start function (world.emitterAt id).moduleName = .ok (parameters, builder) →
      ∃ f, after.emitterAt id = (world.emitterAt id).emitting (builder.extend f) ∧
        (world.emitterAt id).cleared.Recorded (builder.finished f operand) (after.client id).draft

section Define

variable {function : FunctionDeclaration} {action : List Value → Action Journal (Option Value)}

theorem leads_amended_of_ne (hne : watched ≠ id) (change : Page → Page) :
    world.Leads watched ((amend id change).runFrom world) :=
  .of_eq rfl (World.client_amended_of_ne world hne change)

/-- A function of another emitter. Its body may still do something to the
    emitter that is watched. -/
theorem leads_define_of_ne (hne : watched ≠ id)
    (h : ∀ parameters world, World.Leads watched world ((action parameters).runFrom world)) :
    world.Leads watched ((define id function action).runFrom world) := by
  have hemitter {α : Type} (world : World Journal) (step : EmitterM α) :
      world.Leads watched ((Action.onEmitter id step).runFrom world) := leads_onEmitter fun heq => (hne heq).elim
  have hbody (parameters : List Value) (world : World Journal) : world.Leads watched ((do
      let result ← body id function action parameters
      Action.onEmitter id (Emitter.resultOperand function result)).runFrom world) := by
    refine .bind ?_ fun _ after _ => hemitter after _
    refine (leads_amended_of_ne hne _).bind fun _ after _ => (h parameters after).bind fun _ after _ => ?_
    have hget : after.Leads watched ((get : Action Journal (World Journal)).runFrom after) := .of_eq rfl rfl
    exact hget.bind fun _ after _ => (leads_amended_of_ne hne _).bind fun _ after _ => .of_eq rfl rfl
  refine .bind ?_ fun _ after _ => leads_amended_of_ne hne _
  refine (hemitter world _).bind fun parameters started _ => ?_
  refine .attempt_bind (leads_withContext (hbody parameters)) (fun outcome after hfault _ => ?_)
    fun fault after => ⟨after, rfl, fun hdocumented => hdocumented⟩
  rcases outcome with (cause | fault) | operand
  · exact hemitter after _
  · exact (hfault fault rfl).elim
  · exact hemitter after _

/-- The world with an empty draft for a function. -/
def drafting (world : World Journal) (id : EmitterId) (function : FunctionDeclaration) (parameters : List Value) : World Journal :=
  world.amended id ({ · with draft := { declared := function, parameters } })

theorem client_drafting (world : World Journal) (id : EmitterId) (function : FunctionDeclaration) (parameters : List Value) :
    (drafting world id function parameters).client id = { world.client id with draft := { declared := function, parameters } } :=
  World.client_amended_self _ _ _

theorem documented_drafting {parameters : List Value} (h : world.Documented id) :
    (drafting world id function parameters).Documented id :=
  World.documented_congr world rfl rfl (by rw [client_drafting]) h

/-- A body that fails leaves what it has recorded so far. -/
theorem ended_of_error {parameters : List Value} {failure : Failure ValueError} {after : World Journal}
    (h : (drafting world id function parameters).Leads id ((.error failure, after) : Except (Failure ValueError) (Option Value) × _)) :
    Ended id function parameters world after (.error failure) := by
  have hproceeds (hfault : ∀ fault, (.error failure : Except (Failure ValueError) (Option Operand)) ≠ .error (.fault fault)) :
      (drafting world id function parameters).Proceeds id after :=
    h.proceeds fun fault heq => hfault fault (by cases heq; rfl)
  refine ⟨fun hdocumented => h.documented (documented_drafting hdocumented),
    fun hfault hcurrent => (hproceeds hfault).current_eq_none hcurrent, fun hfault builder hcurrent => ?_,
    fun _ heq => nomatch heq⟩
  obtain ⟨events, f, -, hemitter, hpage⟩ := (Emitter.proceeds_iff hcurrent).mp (hproceeds hfault)
  refine ⟨?_, f, hemitter⟩
  rw [hpage, client_drafting]
  rfl

/-- A body that succeeds is followed by what is recorded to return its
    result. -/
theorem ended_of_ok {parameters : List Value} {result : Option Value} {inner after : World Journal}
    {outcome : Except (Failure ValueError) (Option Operand)} (h : (drafting world id function parameters).Proceeds id inner)
    (hdocumented : world.Documented id → inner.Documented id)
    (hresult : (Emitter.resultOperand function result).runFrom (inner.emitterAt id) = (outcome, after.emitterAt id))
    (hpage : after.client id = (inner.client id).extend
      [.returned result ((inner.emitterAt id).codeUntil (after.emitterAt id))]) :
    Ended id function parameters world after outcome := by
  have hgrows := Emitter.grows_resultOperand function result (inner.emitterAt id)
  simp only [hresult] at hgrows
  refine ⟨fun hbefore => World.documented_congr inner hgrows.functions_eq hgrows.settings_eq ?_ (hdocumented hbefore),
    fun _ hcurrent => ?_, fun _ builder hcurrent => ?_, fun operand hok builder hcurrent hstart => ?_⟩
  · rw [hpage]
    rfl
  · have hidle := h.current_eq_none hcurrent
    rwa [hgrows.eq_of_none hidle]
  all_goals
    obtain ⟨events, f, hbody, hinner, hdraft⟩ := (Emitter.proceeds_iff hcurrent).mp h
    rw [hinner] at hgrows
    obtain ⟨g, heq, horderly, hsteps⟩ := (Emitter.grows_iff rfl).mp hgrows
  · refine ⟨?_, f.append g, by rw [heq, FunctionBuilder.extend_extend]; rfl⟩
    rw [hpage, hdraft, client_drafting]
    rfl
  · have hcode : (inner.emitterAt id).codeUntil (after.emitterAt id) = g.code := by
      rw [hinner, heq]
      refine Emitter.codeUntil_extend rfl ?_ g
      simp [FunctionBuilder.extend, FunctionBuilder.blocks_start hstart]
    rw [hinner, heq, hok, FunctionBuilder.extend_extend] at hresult
    refine ⟨f.append g, by rw [heq, FunctionBuilder.extend_extend]; rfl, ?_⟩
    rw [hpage, hcode, hdraft, client_drafting]
    exact .intro hstart hbody hresult horderly hsteps

/-- The body of a function runs, and the emitter is asked for the operand of its
    result. -/
theorem exists_ended (h : ∀ parameters world, World.Leads id world ((action parameters).runFrom world))
    (parameters : List Value) (world : World Journal) : ∃ outcome after,
      (do
        let result ← body id function action parameters
        Action.onEmitter id (Emitter.resultOperand function result)).runFrom world = (outcome, after) ∧
      Ended id function parameters world after outcome := by
  have hleads := h parameters (drafting world id function parameters)
  have hbody := @runFrom_body id function action parameters world
  rw [← drafting] at hbody
  rcases hrun : (action parameters).runFrom (drafting world id function parameters) with ⟨failure | result, inner⟩
  all_goals rw [hrun] at hleads hbody
  · exact ⟨_, _, Stateful.runFrom_bind_of_error hbody _, ended_of_error hleads⟩
  · rcases hresult : (Emitter.resultOperand function result).runFrom (inner.emitterAt id) with ⟨outcome, emitter⟩
    have hgrows := Emitter.grows_resultOperand function result (inner.emitterAt id)
    simp only [hresult] at hbody hgrows
    have hafter (change : Page → Page) : ((inner.amended id change).replaced id emitter).emitterAt id = emitter :=
      World.emitterAt_replaced_self hgrows.eq_of_none
    refine ⟨outcome,
      (inner.amended id (·.extend [.returned result ((inner.emitterAt id).codeUntil emitter)])).replaced id emitter, ?_,
      @ended_of_ok id world function parameters result inner _ outcome (hleads.proceeds fun _ heq => nomatch heq)
        (fun hdocumented => hleads.documented (documented_drafting hdocumented)) ?_ ?_⟩
    · rw [Stateful.runFrom_bind_of_ok hbody, Action.runFrom_onEmitter_eq, World.emitterAt_amended, hresult]
    · rw [hafter, hresult]
    · rw [hafter]
      exact World.client_amended_self inner id (·.extend [.returned result ((inner.emitterAt id).codeUntil emitter)])

section Start

variable {parameters : List Value} {builder : FunctionBuilder} {started after : World Journal}
  {outcome : Except (Failure ValueError) (Option Operand)}

/-- The world in which a function has been started. -/
def starting (world : World Journal) (id : EmitterId) (builder : FunctionBuilder) : World Journal :=
  world.replaced id { world.emitterAt id with current := some builder, scope := (world.emitterAt id).scope + 1 }

/-- A function that is just begun does not concern those that are finished. The
    notes on them stay as they are. -/
theorem documented_starting (h : world.Documented id) : (starting world id builder).Documented id := by
  refine World.documented_congr world ?_ ?_ rfl h
  all_goals
    rw [starting, World.emitterAt_replaced]
    split <;> rfl

/-- A name that was never handed out names no emitter that could start a
    function. -/
theorem emitterAt_starting (hcurrent : (world.emitterAt id).current = none) :
    ((starting world id builder).emitterAt id).current = none ∨ (starting world id builder).emitterAt id =
      { world.emitterAt id with current := some builder, scope := (world.emitterAt id).scope + 1 } := by
  rw [starting, World.emitterAt_replaced]
  split
  · exact .inr rfl
  · exact .inl hcurrent

/-- What an emitter does when the body of a function has ended. The function is
    recorded, or dropped with its notes. -/
theorem leads_endFunction (hcurrent : (world.emitterAt id).current = none)
    (hstart : FunctionBuilder.start function (world.emitterAt id).moduleName = .ok (parameters, builder))
    (hended : Ended id function parameters (starting world id builder) after outcome)
    (hfault : ∀ fault, outcome ≠ .error (.fault fault)) :
    world.Leads id ((do
      Action.onEmitter id (Emitter.endFunction outcome)
      amend id fun page => { page with recorded := page.recorded ++ [page.draft] }).runFrom after) := by
  rw [Stateful.runFrom_bind, Action.runFrom_onEmitter_eq]
  rcases emitterAt_starting hcurrent with hidle | hemitter
  · have hafter := hended.idle hfault hidle
    rw [Emitter.runFrom_endFunction_of_none hafter]
    have hsame : (after.replaced id (after.emitterAt id)).emitterAt id = after.emitterAt id :=
      World.emitterAt_replaced_self fun _ => rfl
    refine ⟨fun hdocumented => ?_, fun _ => Emitter.proceeds_of_none hcurrent (by rw [hsame, hafter])⟩
    exact World.documented_congr after (by rw [hsame]) (by rw [hsame]) rfl (hended.documented (documented_starting hdocumented))
  · rcases outcome with (cause | fault) | operand
    · obtain ⟨hrecorded, f, hafter⟩ := hended.emitting hfault builder (by rw [hemitter])
      rw [hafter, Emitter.runFrom_endFunction_of_error]
      have hfinal : (after.replaced id ((starting world id builder).emitterAt id).cleared).emitterAt id =
          ((starting world id builder).emitterAt id).cleared :=
        World.emitterAt_replaced_of_current (congrArg Emitter.current hafter) _
      refine ⟨fun hdocumented => ?_, fun _ => Emitter.proceeds_of_none hcurrent (by rw [hfinal]; rfl)⟩
      refine World.documented_congr world ?_ ?_ hrecorded hdocumented
      · rw [hfinal, hemitter]
        rfl
      · rw [hfinal, hemitter]
        rfl
    · exact (hfault fault rfl).elim
    · obtain ⟨hrecorded, -⟩ := hended.emitting hfault builder (by rw [hemitter])
      obtain ⟨f, hafter, hfunction⟩ := hended.recorded operand rfl builder (by rw [hemitter]) (by rw [hemitter]; exact hstart)
      rw [hafter, Emitter.runFrom_endFunction_of_ok (FunctionBuilder.blocks_start hstart), hemitter]
      dsimp only
      rw [runFrom_amend]
      generalize hnext : ({ Emitter.cleared _ with functions := _ } : Emitter) = next
      have hfinal : (after.replaced id next).emitterAt id = next :=
        World.emitterAt_replaced_of_current (congrArg Emitter.current hafter) _
      refine ⟨fun hdocumented => ?_, fun _ => Emitter.proceeds_of_none hcurrent ?_⟩
      · have hpage : ((after.replaced id next).amended id fun page =>
            { page with recorded := page.recorded ++ [page.draft] }).client id =
              { after.client id with recorded := (after.client id).recorded ++ [(after.client id).draft] } :=
          World.client_amended_self _ _ _
        rw [hemitter] at hfunction
        rw [World.Documented, World.emitterAt_amended, hfinal, hpage, hrecorded, ← hnext]
        dsimp only
        rw [Array.toList_push]
        exact List.rel_append hdocumented (.cons ⟨⟨_, by rfl⟩, by rfl, hfunction⟩ .nil)
      · rw [World.emitterAt_amended, hfinal, ← hnext]
        rfl

end Start

/-- What is left of a definition when the body has ended, unless with a
    fault. -/
theorem runFrom_define_of_start {parameters : List Value} {emitter : Emitter} {after : World Journal}
    {outcome : Except (Failure ValueError) (Option Operand)}
    (hrun : (Emitter.startFunction function).runFrom (world.emitterAt id) = (.ok parameters, emitter))
    (hwith : (Action.withContext (.emitter id) do
      let result ← body id function action parameters
      Action.onEmitter id (Emitter.resultOperand function result)).runFrom (world.replaced id emitter) = (outcome, after)) :
    (define id function action).runFrom world =
      match outcome with
      | .error (.fault fault) => (.error (.fault fault), after)
      | outcome => (do
          Action.onEmitter id (Emitter.endFunction outcome)
          amend id fun page => { page with recorded := page.recorded ++ [page.draft] }).runFrom after := by
  unfold define Action.defineFunction
  rw [bind_assoc, Stateful.runFrom_bind, Action.runFrom_onEmitter_eq, hrun]
  dsimp only
  rw [bind_assoc, Stateful.runFrom_bind_of_ok (Stateful.runFrom_attempt_eq_ok.mpr hwith)]
  rcases outcome with (cause | fault) | operand <;> rfl

/-- How a function comes about that an emitter starts. -/
theorem leads_define_of_start {parameters : List Value} {builder : FunctionBuilder}
    (hcurrent : (world.emitterAt id).current = none)
    (hstart : FunctionBuilder.start function (world.emitterAt id).moduleName = .ok (parameters, builder))
    (hrun : (Emitter.startFunction function).runFrom (world.emitterAt id) = (.ok parameters,
      { world.emitterAt id with current := some builder, scope := (world.emitterAt id).scope + 1 }))
    (h : ∀ parameters world, World.Leads id world ((action parameters).runFrom world)) :
    world.Leads id ((define id function action).runFrom world) := by
  obtain ⟨outcome, after, hbody, hended⟩ := exists_ended h parameters
    { starting world id builder with contexts := .emitter id :: (starting world id builder).contexts }
  have hcases := Action.runFrom_withContext (.emitter id) (do
    let result ← body id function action parameters
    Action.onEmitter id (Emitter.resultOperand function result)) (starting world id builder)
  rw [hbody] at hcases
  rcases hcases with hwith | ⟨fault, contexts, hwith⟩
  · rw [runFrom_define_of_start hrun hwith]
    rcases outcome with (cause | fault) | operand
    · exact leads_endFunction hcurrent hstart ⟨hended.documented, hended.idle, hended.emitting, hended.recorded⟩
        fun _ heq => nomatch heq
    · exact ⟨fun hdocumented => hended.documented (documented_starting hdocumented), fun hfault => (hfault fault rfl).elim⟩
    · exact leads_endFunction hcurrent hstart ⟨hended.documented, hended.idle, hended.emitting, hended.recorded⟩
        fun _ heq => nomatch heq
  · rw [runFrom_define_of_start hrun hwith]
    exact ⟨fun hdocumented => hended.documented (documented_starting hdocumented), fun hfault => (hfault fault rfl).elim⟩

/-- A function that is defined, whatever its body does. It may define functions
    of other emitters in the meantime. -/
theorem leads_define (id : EmitterId) (function : FunctionDeclaration)
    (h : ∀ parameters world, World.Leads watched world ((action parameters).runFrom world)) (world : World Journal) :
    world.Leads watched ((define id function action).runFrom world) := by
  by_cases heq : watched = id
  · subst heq
    rcases Emitter.runFrom_startFunction (world.emitterAt watched) function with
      ⟨failure, hrun⟩ | ⟨parameters, builder, hcurrent, hstart, hrun⟩
    · have hdefine : (define watched function action).runFrom world =
          (.error failure, world.replaced watched (world.emitterAt watched)) := by
        rw [define, Action.defineFunction]
        refine Stateful.runFrom_bind_of_error (Stateful.runFrom_bind_of_error ?_ _) _
        rw [Action.runFrom_onEmitter_eq, hrun]
      rw [hdefine]
      exact .of_eq (World.emitterAt_replaced_self fun _ => rfl) rfl
    · exact leads_define_of_start hcurrent hstart hrun h
  · exact leads_define_of_ne heq h

end Define

/-- A new emitter leaves all others as they are. -/
theorem leads_newEmitter (moduleName : String) (config : EmitterConfig) :
    world.Leads watched ((Action.newEmitter moduleName config).runFrom world) := by
  have hrun : (Action.newEmitter moduleName config).runFrom world = (.ok ⟨world.emitters.size⟩,
      { world with emitters := world.emitters.push { moduleName, config } }) := rfl
  rw [hrun]
  by_cases heq : watched.index = world.emitters.size
  · have hbefore : world.emitterAt watched = default := by
      rw [World.emitterAt, heq, Array.getElem?_eq_none (Nat.le_refl _)]
      rfl
    have hafter : ({ world with emitters := world.emitters.push { moduleName, config } } : World Journal).emitterAt watched =
        { moduleName, config } := by
      simp [World.emitterAt, heq]
    refine ⟨fun hdocumented => ?_, fun _ => Emitter.proceeds_of_none (by rw [hbefore]; rfl) (by rw [hafter])⟩
    rw [World.Documented, hbefore] at hdocumented
    have hnil : (world.client watched).recorded = [] := List.forall₂_nil_left_iff.mp hdocumented
    rw [World.Documented, hafter]
    exact List.forall₂_nil_left_iff.mpr hnil
  · refine .of_eq ?_ rfl
    simp [World.emitterAt, Array.getElem?_push, heq]

end Journal

namespace Script

/-- However a program goes on, and however it ends. By recursion on the
    program. -/
theorem leads {α : Type} (script : Script α) (id : EmitterId) (world : World Journal) :
    world.Leads id (script.run.runFrom world) := by
  induction script generalizing world with
  | done outcome =>
    rw [run, Stateful.runFrom_settle]
    exact .of_eq rfl rfl
  | aside step next ih =>
    refine .bind (.caught (.of_eq ?_ (congrFun (step.client_eq world) id))) fun _ after _ => ih _ after
    rw [World.emitterAt, step.emitters_eq, World.emitterAt]
  | newEmitter moduleName config next ih =>
    exact .bind (Journal.leads_newEmitter moduleName config) fun _ after _ => ih _ after
  | perform context operation next ih =>
    exact .bind (.caught (Journal.leads_perform context operation world)) fun _ after _ => ih _ after
  | forEach context layout body next ihBody ih =>
    exact .bind (.caught (Journal.leads_forEach ihBody context layout world)) fun _ after _ => ih _ after
  | define id' function body next ihBody ih =>
    exact .bind (.caught (Journal.leads_define id' function ihBody world)) fun _ after _ => ih _ after

end Script

namespace World

/-- A world with nothing but a host in it. There are no emitters yet, and so no
    notes. -/
def outset (heap : Heap) : World Journal where
  heap := heap
  client := fun _ => {}

/-- A function and the notes on it are found in the same place. -/
theorem Documented.exists_recorded {id : EmitterId} {world : World Journal} (h : world.Documented id) {k : Nat}
    {function : EmittedFunction} {transcript : Transcript}
    (hfunction : (world.emitterAt id).functions.toList[k]? = some function)
    (htranscript : (world.client id).recorded[k]? = some transcript) :
    ∃ origin : Emitter, origin.config = (world.emitterAt id).config ∧ origin.Recorded function transcript := by
  obtain ⟨hlt, rfl⟩ := List.getElem?_eq_some_iff.mp hfunction
  obtain ⟨hlt', rfl⟩ := List.getElem?_eq_some_iff.mp htranscript
  obtain ⟨origin, hconfig, hrecorded⟩ := h.get hlt hlt'
  exact ⟨origin, hconfig, hrecorded⟩

/-- There is a function for all notes. -/
theorem Documented.exists_of_mem {id : EmitterId} {world : World Journal} (h : world.Documented id)
    {transcript : Transcript} (hmem : transcript ∈ (world.client id).recorded) :
    ∃ function, ∃ origin : Emitter, origin.Recorded function transcript := by
  obtain ⟨k, htranscript⟩ := List.mem_iff_getElem?.mp hmem
  have hlt : k < (world.emitterAt id).functions.toList.length := by
    rw [h.length_eq]
    exact (List.getElem?_eq_some_iff.mp htranscript).1
  obtain ⟨origin, -, hrecorded⟩ := h.exists_recorded (List.getElem?_eq_getElem hlt) htranscript
  exact ⟨_, origin, hrecorded⟩

/-- Whatever a program does from the outset on, its functions have come about as
    noted. -/
theorem documented_run {α : Type} (script : Script α) (heap : Heap) (id : EmitterId) :
    (script.run.runFrom (outset heap)).2.Documented id :=
  (script.leads id (outset heap)).documented .nil

end World

end StagedArrays
