import StagedArrays.Proofs.Emission.Recorded
import StagedArrays.Proofs.Layout.Coordinates
import StagedArrays.Proofs.Script.Emission

namespace StagedArrays

/-- A function that an emitter has recorded, and the notes on how it came
    about. -/
inductive Emitter.Recorded (emitter : Emitter) : EmittedFunction → Transcript → Prop where
  | intro {function : FunctionDeclaration} {parameters : List Value} {builder : FunctionBuilder} {events : List EmitterEvent}
      {f g : Fragment} {result : Option Value} {operand : Option Operand}
      (start_eq : FunctionBuilder.start function emitter.moduleName = .ok (parameters, builder))
      (body : Emission emitter builder events f)
      (result_eq : (resultOperand function result).runFrom (emitter.emitting (builder.extend f)) =
        (.ok operand, emitter.emitting (builder.extend (f.append g))))
      (orderly : g.Orderly emitter.config (builder.extend f)) (steps_eq : blockSteps g.code = g.code) :
      Recorded emitter (builder.finished (f.append g) operand) ⟨function, parameters, events ++ [.returned result g.code]⟩

namespace World

/-- The functions that an emitter has recorded have come about as noted, under
    the name of its module. -/
def Documented (id : EmitterId) (world : World Journal) : Prop :=
  List.Forall₂ (fun function transcript =>
    ∃ origin : { origin : Emitter // origin.moduleName = (world.emitterAt id).moduleName },
      origin.val.config = (world.emitterAt id).config ∧ origin.val.Recorded function transcript)
    (world.emitterAt id).functions.toList (world.client id).recorded

/-- What becomes of an emitter in the course of a program that does not end with
    a fault. -/
def Proceeds (id : EmitterId) (world after : World Journal) : Prop :=
  (world.emitterAt id).Proceeds (world.client id) (after.emitterAt id) (after.client id)

/-- How a program leaves an emitter and the notes on it. Both are what later
    statements about functions rest on. -/
structure Leads {α : Type} (id : EmitterId) (world : World Journal) (run : Except (Failure ValueError) α × World Journal) :
    Prop where
  documented : world.Documented id → run.2.Documented id
  proceeds : (∀ fault, run.1 ≠ .error (.fault fault)) → world.Proceeds id run.2

variable {α β : Type} {id : EmitterId} {world after : World Journal}

/-- Whether an emitter is documented depends on its functions, its settings and
    the notes on them. -/
theorem documented_congr (world : World Journal) (hfunctions : (after.emitterAt id).functions = (world.emitterAt id).functions)
    (hsettings : (after.emitterAt id).settings = (world.emitterAt id).settings)
    (hrecorded : (after.client id).recorded = (world.client id).recorded) (h : world.Documented id) :
    after.Documented id := by
  obtain ⟨hname, hconfig⟩ := Prod.ext_iff.mp hsettings
  simp only [Emitter.settings] at hname hconfig
  rw [Documented, hfunctions, hname, hconfig, hrecorded]
  exact h

theorem Proceeds.trans {final : World Journal} (h : world.Proceeds id after) (h' : after.Proceeds id final) :
    world.Proceeds id final :=
  Emitter.Proceeds.trans h h'

namespace Leads

/-- What leaves the emitter and its page alone. Other emitters may change. -/
theorem of_eq {run : Except (Failure ValueError) α × World Journal} (hemitter : run.2.emitterAt id = world.emitterAt id)
    (hpage : run.2.client id = world.client id) : world.Leads id run := by
  refine ⟨documented_congr world (by rw [hemitter]) (by rw [hemitter]) (by rw [hpage]), fun _ => ?_⟩
  rw [Proceeds, hemitter, hpage]
  exact .refl _ _

/-- The course of a sequence is that of its first part, continued from wherever
    this part ends well. -/
theorem bind {action : Action Journal α} {next : α → Action Journal β} (h : world.Leads id (action.runFrom world))
    (hnext : ∀ value after, action.runFrom world = (.ok value, after) → after.Leads id ((next value).runFrom after)) :
    world.Leads id ((action >>= next).runFrom world) := by
  rw [Stateful.runFrom_bind]
  rcases hrun : action.runFrom world with ⟨failure | value, after⟩
  · rw [hrun] at h
    refine ⟨h.documented, fun hfault => h.proceeds fun fault heq => hfault fault ?_⟩
    cases heq
    rfl
  · rw [hrun] at h
    have hrest := hnext value after hrun
    refine ⟨fun hdocumented => hrest.documented (h.documented hdocumented), fun hfault => ?_⟩
    exact (h.proceeds fun _ heq => nomatch heq).trans (hrest.proceeds hfault)

/-- Catching an error changes nothing about how an emitter is left. -/
theorem caught {action : Action Journal α} (h : world.Leads id (action.runFrom world)) :
    world.Leads id ((Stateful.caught action).runFrom world) := by
  unfold Stateful.caught
  rw [Stateful.runFrom_bind_of_ok (Stateful.runFrom_attempt action world)]
  rcases hrun : action.runFrom world with ⟨(cause | fault) | value, after⟩
  all_goals rw [hrun] at h
  · exact ⟨h.documented, fun _ => h.proceeds fun _ heq => nomatch heq⟩
  · exact ⟨h.documented, fun hfault => (hfault fault rfl).elim⟩
  · exact ⟨h.documented, fun _ => h.proceeds fun _ heq => nomatch heq⟩

/-- An outcome that is looked at: if it is a fault, that goes on. An error may
    be dealt with. -/
theorem attempt_bind {action : Action Journal α} {next : Except (Failure ValueError) α → Action Journal β}
    (h : world.Leads id (action.runFrom world))
    (hnext : ∀ outcome after, (∀ fault, outcome ≠ .error (.fault fault)) → action.runFrom world = (outcome, after) →
      after.Leads id ((next outcome).runFrom after))
    (hfault : ∀ fault after, ∃ final, (next (.error (.fault fault))).runFrom after = (.error (.fault fault), final) ∧
      (after.Documented id → final.Documented id)) :
    world.Leads id ((Stateful.attempt action >>= next).runFrom world) := by
  rw [Stateful.runFrom_bind_of_ok (Stateful.runFrom_attempt action world)]
  rcases hrun : action.runFrom world with ⟨outcome, after⟩
  rw [hrun] at h
  by_cases hoccurs : ∃ fault, outcome = .error (.fault fault)
  · obtain ⟨fault, rfl⟩ := hoccurs
    obtain ⟨final, heq, hdocumented⟩ := hfault fault after
    rw [heq]
    exact ⟨fun hbefore => hdocumented (h.documented hbefore), fun hnone => (hnone fault rfl).elim⟩
  · have hnone : ∀ fault, outcome ≠ .error (.fault fault) := fun fault heq => hoccurs ⟨fault, heq⟩
    have hrest := hnext outcome after hnone hrun
    exact ⟨fun hbefore => hrest.documented (h.documented hbefore), fun hfault => (h.proceeds hnone).trans (hrest.proceeds hfault)⟩

theorem forM {xs : List α} {body : α → Action Journal Unit} (h : ∀ x world, World.Leads id world ((body x).runFrom world)) :
    world.Leads id ((xs.forM body).runFrom world) := by
  induction xs generalizing world with
  | nil => exact of_eq rfl rfl
  | cons x xs ih => exact (h x world).bind fun _ _ _ => ih

end Leads

/-- The world with other notes on an emitter. -/
def amended (world : World Journal) (id : EmitterId) (change : Page → Page) : World Journal :=
  { world with client := Function.update world.client id (change (world.client id)) }

/-- The world with another emitter under a name. If there is none under it,
    nothing changes. -/
def replaced {σ : Type} (world : World σ) (id : EmitterId) (emitter : Emitter) : World σ :=
  { world with emitters := world.emitters.setIfInBounds id.index emitter }

theorem emitterAt_amended (world : World Journal) (id other : EmitterId) (change : Page → Page) :
    (world.amended id change).emitterAt other = world.emitterAt other := rfl

theorem client_amended_self (world : World Journal) (id : EmitterId) (change : Page → Page) :
    (world.amended id change).client id = change (world.client id) := Function.update_self _ _ _

theorem client_amended_of_ne (world : World Journal) {id other : EmitterId} (h : other ≠ id) (change : Page → Page) :
    (world.amended id change).client other = world.client other := Function.update_of_ne h _ _

theorem emitterAt_replaced {σ : Type} (world : World σ) (id other : EmitterId) (emitter : Emitter) :
    (world.replaced id emitter).emitterAt other =
      if other = id ∧ id.index < world.emitters.size then emitter else world.emitterAt other := emitterAt_set

theorem emitterAt_replaced_of_ne {σ : Type} (world : World σ) {id other : EmitterId} (h : other ≠ id) (emitter : Emitter) :
    (world.replaced id emitter).emitterAt other = world.emitterAt other := by
  rw [emitterAt_replaced, if_neg fun hand => h hand.1]

/-- A name that was never handed out stands for an emitter with no function in
    progress. -/
theorem lt_size_of_current {σ : Type} {world : World σ} {builder : FunctionBuilder}
    (h : (world.emitterAt id).current = some builder) : id.index < world.emitters.size := by
  by_contra hge
  rw [emitterAt, Array.getElem?_eq_none (Nat.le_of_not_lt hge)] at h
  cases h

/-- What changes an emitter only if it has a function in progress. -/
theorem emitterAt_replaced_self {σ : Type} {world : World σ} {emitter : Emitter}
    (h : (world.emitterAt id).current = none → emitter = world.emitterAt id) :
    (world.replaced id emitter).emitterAt id = emitter := by
  rw [emitterAt_replaced]
  split
  · rfl
  · next hand =>
    cases hcurrent : (world.emitterAt id).current with
    | none => exact (h hcurrent).symm
    | some builder => exact (hand ⟨rfl, lt_size_of_current hcurrent⟩).elim

theorem emitterAt_replaced_of_current {σ : Type} {world : World σ} {builder : FunctionBuilder}
    (hcurrent : (world.emitterAt id).current = some builder) (emitter : Emitter) :
    (world.replaced id emitter).emitterAt id = emitter :=
  emitterAt_replaced_self fun hnone => nomatch hcurrent.symm.trans hnone

theorem replaced_emitterAt {σ : Type} (world : World σ) (id : EmitterId) : world.replaced id (world.emitterAt id) = world := by
  rw [replaced, set_emitterAt]

/-- The world in which the body of a nest of loops begins. The loops are open
    and the opening is noted. -/
def inside (world : World Journal) (id : EmitterId) (builder : FunctionBuilder) (count : Nat) : World Journal :=
  (world.replaced id ((world.emitterAt id).emitting (builder.opened count))).amended id
    (·.extend [.opened (builder.loopCoordinates count)])

theorem emitterAt_inside {builder : FunctionBuilder} (hcurrent : (world.emitterAt id).current = some builder) (count : Nat) :
    (world.inside id builder count).emitterAt id = (world.emitterAt id).emitting (builder.opened count) :=
  emitterAt_replaced_of_current hcurrent _

theorem client_inside (builder : FunctionBuilder) (count : Nat) :
    (world.inside id builder count).client id = (world.client id).extend [.opened (builder.loopCoordinates count)] :=
  client_amended_self _ _ _

/-- Where the emitter has gone on with the function in progress, no more
    functions have been recorded. -/
theorem leads_of_proceeds {builder : FunctionBuilder} {outcome : Except (Failure ValueError) α}
    (hcurrent : (world.emitterAt id).current = some builder) (h : world.Proceeds id after) :
    world.Leads id (outcome, after) := by
  obtain ⟨hfunctions, hsettings, hrecorded⟩ := h.eq_of_some hcurrent
  exact ⟨documented_congr world hfunctions hsettings hrecorded, fun _ => h⟩

end World

namespace Action

variable {id : EmitterId} {world : World Journal}

theorem runFrom_onEmitter_eq {σ α : Type} (id : EmitterId) (action : EmitterM α) (world : World σ) :
    (onEmitter id action).runFrom world =
      ((action.runFrom (world.emitterAt id)).1, world.replaced id (action.runFrom (world.emitterAt id)).2) := rfl

end Action

namespace Context

variable {σ : Type} {layout : Layout} {body : List Scalar → Action σ Unit} {world inner : World σ} {id : EmitterId}
  {builder : FunctionBuilder} {outcome : Except (Failure ValueError) Unit}

/-- The world in which the body of a nest of loops is recorded. -/
def opened (world : World σ) (id : EmitterId) (builder : FunctionBuilder) (count : Nat) : World σ :=
  world.replaced id ((world.emitterAt id).emitting (builder.opened count))

theorem emitterAt_opened (hcurrent : (world.emitterAt id).current = some builder) (loops : Nat) :
    (opened world id builder loops).emitterAt id = (world.emitterAt id).emitting (builder.opened loops) :=
  World.emitterAt_replaced_of_current hcurrent _

/-- The loops are opened for the function in progress, and closed unless there
    is a fault. -/
theorem runFrom_forEach_of_some (hcurrent : (world.emitterAt id).current = some builder)
    (hbody : (body (builder.loopCoordinates layout.extents.length)).runFrom
      (opened world id builder layout.extents.length) = (outcome, inner)) :
    ((emitter id).forEach layout body).runFrom world =
      match outcome with
      | .error (.fault fault) => (.error (.fault fault), inner)
      | _ => (Action.onEmitter id (Emit.closeLoops
          (FunctionBuilder.loopRegisters builder.nextRegister layout.extents.length) layout.extents) >>=
            fun _ => Stateful.settle outcome).runFrom inner := by
  have hloops : (Action.onEmitter id (Emit.openLoops layout.extents)).runFrom world =
      (.ok (FunctionBuilder.loopRegisters builder.nextRegister layout.extents.length),
        opened world id builder layout.extents.length) := by
    have hrun := Emitter.runFrom_openLoops (world.emitterAt id) builder layout.extents
    rw [Emitter.emitting_eq hcurrent] at hrun
    rw [Action.runFrom_onEmitter_eq, hrun]
    rfl
  rw [FunctionBuilder.loopCoordinates] at hbody
  rw [forEach, Stateful.runFrom_bind_of_ok hloops, Stateful.runFrom_bind_of_ok (Stateful.runFrom_attempt _ _), hbody]
  rcases outcome with (cause | fault) | u <;> rfl

/-- What the body records is recorded inside the loops, and the outcome is that
    of the body. -/
theorem runFrom_forEach_of_emitting {f : Fragment} (hcurrent : (world.emitterAt id).current = some builder)
    (hbody : (body (builder.loopCoordinates layout.extents.length)).runFrom
      (opened world id builder layout.extents.length) = (outcome, inner))
    (hfault : ∀ fault, outcome ≠ .error (.fault fault))
    (hinner : inner.emitterAt id = (world.emitterAt id).emitting ((builder.opened layout.extents.length).extend f)) :
    ((emitter id).forEach layout body).runFrom world = (outcome, inner.replaced id ((world.emitterAt id).emitting
      (builder.extend (f.nest builder.nextRegister layout.extents)))) := by
  have hclose : (Action.onEmitter id (Emit.closeLoops
      (FunctionBuilder.loopRegisters builder.nextRegister layout.extents.length) layout.extents)).runFrom inner =
      (.ok (), inner.replaced id ((world.emitterAt id).emitting
        (builder.extend (f.nest builder.nextRegister layout.extents)))) := by
    rw [Action.runFrom_onEmitter_eq, hinner, Emitter.runFrom_closeLoops]
  rw [runFrom_forEach_of_some hcurrent hbody]
  rcases outcome with (cause | fault) | u
  · exact Stateful.runFrom_bind_of_ok hclose _
  · exact (hfault fault rfl).elim
  · exact Stateful.runFrom_bind_of_ok hclose _

end Context

namespace Journal

variable {id watched : EmitterId} {world : World Journal}

theorem runFrom_amend (id : EmitterId) (change : Page → Page) (world : World Journal) :
    (amend id change).runFrom world = (.ok (), world.amended id change) := rfl

theorem runFrom_note (id : EmitterId) (event : EmitterEvent) (world : World Journal) :
    (note id event).runFrom world = (.ok (), world.amended id (·.extend [event])) := rfl

/-- A noted operation runs on its emitter, and the note tells the outcome and
    the code that it has recorded. -/
theorem runFrom_perform (id : EmitterId) (operation : Operation) (world : World Journal) :
    (perform (.emitter id) operation).runFrom world =
      let (outcome, emitter) := operation.emit.runFrom (world.emitterAt id)
      let after := world.replaced id emitter
      (outcome, after.amended id
        (·.extend [.performed operation outcome ((world.emitterAt id).codeUntil (after.emitterAt id))])) := by
  simp only [perform, Stateful.runFrom_bind, Stateful.runFrom_get, Stateful.runFrom_attempt,
    Operation.runFrom_run_emitter, Action.runFrom_onEmitter_eq, runFrom_note, Stateful.runFrom_settle]

/-- What a pass of a loop does in the context of an emitter. The note at its end
    is made however it ends. -/
theorem runFrom_bracket (id : EmitterId) (coordinates : List Scalar) (body : Action Journal Unit) (world : World Journal) :
    (bracket (.emitter id) coordinates body).runFrom world =
      let (outcome, after) := body.runFrom (world.amended id (·.extend [.opened coordinates]))
      (outcome, after.amended id (·.extend [.closed])) := by
  simp only [bracket, Stateful.runFrom_bind, Stateful.runFrom_attempt, runFrom_note, Stateful.runFrom_settle]

/-- Notes on a page matter to that page only, and not while no function is in
    progress. -/
theorem leads_amended {events : List EmitterEvent} (hidle : watched = id → (world.emitterAt id).current = none) :
    world.Leads watched ((.ok (), world.amended id (·.extend events)) : Except (Failure ValueError) Unit × _) := by
  by_cases heq : watched = id
  · subst heq
    refine ⟨World.documented_congr world rfl rfl ?_, fun _ => Emitter.proceeds_of_none (hidle rfl) (hidle rfl)⟩
    rw [World.client_amended_self]
    rfl
  · exact .of_eq rfl (World.client_amended_of_ne world heq (·.extend events))

/-- Notes on the function in progress do not concern the functions that are
    finished. -/
theorem documented_amended_extend (events : List EmitterEvent) (h : world.Documented watched) :
    (world.amended id (·.extend events)).Documented watched := by
  refine World.documented_congr world rfl rfl ?_ h
  by_cases heq : watched = id
  · subst heq
    rw [World.client_amended_self]
    rfl
  · rw [World.client_amended_of_ne world heq]

/-- Every operation, in whatever context. -/
theorem leads_perform (context : Context) (operation : Operation) (world : World Journal) :
    world.Leads watched ((perform context operation).runFrom world) := by
  cases context with
  | compute =>
    obtain ⟨outcome, heap, hrun⟩ := operation.exists_runFrom_compute world
    rw [perform, hrun]
    exact .of_eq rfl rfl
  | emitter id =>
    rw [runFrom_perform]
    rcases hrun : operation.emit.runFrom (world.emitterAt id) with ⟨outcome, emitter⟩
    dsimp only
    by_cases heq : watched = id
    · subst heq
      have hgrows := operation.grows_emit (world.emitterAt watched)
      simp only [hrun] at hgrows
      have hafter := World.emitterAt_replaced_self hgrows.eq_of_none
      refine ⟨fun h => documented_amended_extend _ (World.documented_congr world ?_ ?_ rfl h), fun _ => ?_⟩
      · rw [hafter, hgrows.functions_eq]
      · rw [hafter, hgrows.settings_eq]
      · rw [World.Proceeds, World.client_amended_self, World.emitterAt_amended, hafter]
        exact Emitter.proceeds_perform hrun _
    · refine .of_eq ?_ ?_
      · rw [World.emitterAt_amended, World.emitterAt_replaced_of_ne world heq]
      · rw [World.client_amended_of_ne _ heq]
        rfl

/-- What leaves the emitter as it is. -/
theorem leads_onEmitter {α : Type} {action : EmitterM α}
    (h : watched = id → (action.runFrom (world.emitterAt id)).2 = world.emitterAt id) :
    world.Leads watched ((Action.onEmitter id action).runFrom world) := by
  refine .of_eq ?_ rfl
  rw [Action.runFrom_onEmitter_eq, World.emitterAt_replaced]
  split
  · next hand => rw [h hand.1, hand.1]
  · rfl

section Loops

variable {layout : Layout} {body : List Scalar → Action Journal Unit}

/-- No loop is opened while no function is in progress. -/
theorem openLoops_of_none {emitter : Emitter} (hcurrent : emitter.current = none) (extents : List Nat) :
    ((Emit.openLoops extents).runFrom emitter).2 = emitter := by
  cases extents with
  | nil => rfl
  | cons extent extents =>
    unfold Emit.openLoops
    rw [Stateful.runFrom_bind_of_error (Emitter.runFrom_builder_of_none hcurrent)]

/-- No loop is closed while no function is in progress. -/
theorem closeLoops_of_none {emitter : Emitter} (hcurrent : emitter.current = none) (registers : List RegisterId)
    (extents : List Nat) : ((Emit.closeLoops registers extents).runFrom emitter).2 = emitter := by
  induction registers generalizing extents with
  | nil => rfl
  | cons register registers ih =>
    cases extents with
    | nil => rfl
    | cons extent extents =>
      unfold Emit.closeLoops
      rw [Stateful.runFrom_bind]
      rcases hrun : (Emit.closeLoops registers extents).runFrom emitter with ⟨failure | u, after⟩
      all_goals
        have hafter := ih extents
        rw [hrun] at hafter
      · exact hafter
      · obtain rfl : after = emitter := hafter
        dsimp only
        rw [Stateful.runFrom_bind_of_error (Emitter.runFrom_builder_of_none hcurrent)]

/-- The start and the end of one pass are noted for another emitter, or for one
    without a function in progress; neither changes what the notes claim. -/
theorem leads_bracket {coordinates : List Scalar} {action : Action Journal Unit}
    (h : ∀ world, World.Leads watched world (action.runFrom world))
    (hidle : watched = id → (world.emitterAt id).current = none) :
    world.Leads watched ((bracket (.emitter id) coordinates action).runFrom world) := by
  rw [runFrom_bracket]
  have hnoted := @leads_amended id watched world [.opened coordinates] hidle
  have hbody := h (world.amended id (·.extend [.opened coordinates]))
  rcases hrun : action.runFrom (world.amended id (·.extend [.opened coordinates])) with ⟨outcome, inner⟩
  rw [hrun] at hbody
  refine ⟨fun hdocumented => documented_amended_extend _ (hbody.documented (hnoted.documented hdocumented)), fun hfault => ?_⟩
  have hinner : world.Proceeds watched inner :=
    (hnoted.proceeds fun _ heq => nomatch heq).trans (hbody.proceeds hfault)
  have hclosed := @leads_amended id watched inner [.closed] fun heq => by
    subst heq
    exact hinner.current_eq_none (hidle rfl)
  exact hinner.trans (hclosed.proceeds fun _ heq => nomatch heq)

/-- A nest of loops of another emitter, or of one that has no function in
    progress. -/
theorem leads_forEach_of_idle (h : ∀ coordinates world, World.Leads watched world ((body coordinates).runFrom world))
    (hidle : watched = id → (world.emitterAt id).current = none) :
    world.Leads watched (((Context.emitter id).forEach layout fun coordinates =>
      bracket (.emitter id) coordinates (body coordinates)).runFrom world) := by
  unfold Context.forEach
  dsimp only
  have hopen := @leads_onEmitter id watched world _ (Emit.openLoops layout.extents) fun heq =>
    openLoops_of_none (hidle heq) _
  refine hopen.bind fun registers opened hrun => ?_
  rw [hrun] at hopen
  have hidle' : watched = id → (opened.emitterAt id).current = none := by
    rintro rfl
    exact (hopen.proceeds fun _ heq => nomatch heq).current_eq_none (hidle rfl)
  have hbracket := @leads_bracket id watched opened (registers.map (Scalar.ofRegister .i64))
    (body (registers.map (Scalar.ofRegister .i64))) (h _) hidle'
  refine hbracket.attempt_bind (fun outcome inner hfault hrun => ?_) fun fault inner => ⟨inner, rfl, fun hdocumented => hdocumented⟩
  rw [hrun] at hbracket
  have hclose := @leads_onEmitter id watched inner _ (Emit.closeLoops registers layout.extents) fun heq => by
    subst heq
    exact closeLoops_of_none ((hbracket.proceeds hfault).current_eq_none (hidle' rfl)) _ _
  have hrest : inner.Leads watched ((do
      Action.onEmitter id (Emit.closeLoops registers layout.extents)
      Stateful.settle outcome : Action Journal Unit).runFrom inner) := by
    refine hclose.bind fun _ after _ => ?_
    rw [Stateful.runFrom_settle]
    exact .of_eq rfl rfl
  rcases outcome with (cause | fault) | u
  · exact hrest
  · exact (hfault fault rfl).elim
  · exact hrest

/-- The body of a nest of loops is run between two notes. -/
theorem runFrom_bracket_opened {builder : FunctionBuilder} {outcome : Except (Failure ValueError) Unit} {count : Nat}
    {inner : World Journal}
    (h : (body (builder.loopCoordinates count)).runFrom (world.inside id builder count) = (outcome, inner)) :
    (bracket (.emitter id) (builder.loopCoordinates count) (body (builder.loopCoordinates count))).runFrom
      (Context.opened world id builder count) = (outcome, inner.amended id (·.extend [.closed])) := by
  rw [World.inside] at h
  rw [runFrom_bracket, Context.opened, h]

/-- A nest of loops in the function in progress. The loops are closed even if
    the body fails. -/
theorem leads_forEach_self {builder : FunctionBuilder} (hcurrent : (world.emitterAt id).current = some builder)
    (h : ∀ coordinates world, World.Leads id world ((body coordinates).runFrom world)) :
    world.Leads id (((Context.emitter id).forEach layout fun coordinates =>
      bracket (.emitter id) coordinates (body coordinates)).runFrom world) := by
  have hinside := World.emitterAt_inside hcurrent layout.extents.length
  have hbody := h (builder.loopCoordinates layout.extents.length) (world.inside id builder layout.extents.length)
  rcases hrun : (body (builder.loopCoordinates layout.extents.length)).runFrom
    (world.inside id builder layout.extents.length) with ⟨outcome, inner⟩
  rw [hrun] at hbody
  have hbracket := runFrom_bracket_opened hrun
  by_cases hoccurs : ∃ fault, outcome = .error (.fault fault)
  · obtain ⟨fault, rfl⟩ := hoccurs
    rw [Context.runFrom_forEach_of_some hcurrent hbracket]
    refine ⟨fun hdocumented => documented_amended_extend _ (hbody.documented ?_), fun hfault => (hfault fault rfl).elim⟩
    exact World.documented_congr world (by rw [hinside]; rfl) (by rw [hinside]; rfl) (by rw [World.client_inside]; rfl)
      hdocumented
  · have hfault : ∀ fault, outcome ≠ .error (.fault fault) := fun fault heq => hoccurs ⟨fault, heq⟩
    have hproceeds := hbody.proceeds hfault
    rw [World.Proceeds, hinside, World.client_inside] at hproceeds
    obtain ⟨events, f, hf, hinner, hpage⟩ := (Emitter.proceeds_iff rfl).mp hproceeds
    have hamended : (inner.amended id (·.extend [.closed])).emitterAt id =
      (world.emitterAt id).emitting ((builder.opened layout.extents.length).extend f) := hinner
    rw [Context.runFrom_forEach_of_emitting hcurrent hbracket hfault hamended]
    refine World.leads_of_proceeds hcurrent ((Emitter.proceeds_iff hcurrent).mpr ⟨_, _, hf.loops, ?_, ?_⟩)
    · exact World.emitterAt_replaced_of_current (congrArg Emitter.current hamended) _
    · dsimp only at hpage
      refine (World.client_amended_self inner id (·.extend [.closed])).trans ?_
      rw [hpage]
      simp [Page.extend]

end Loops

/-- Loops over a layout, in whatever context. -/
theorem leads_forEach {body : List Scalar → Action Journal Unit}
    (h : ∀ coordinates world, World.Leads watched world ((body coordinates).runFrom world)) (context : Context)
    (layout : Layout) (world : World Journal) :
    world.Leads watched ((context.forEach layout fun coordinates =>
      bracket context coordinates (body coordinates)).runFrom world) := by
  cases context with
  | compute =>
    rw [Context.forEach, Layout.forCoordinates_eq]
    exact .forM fun coordinates world => h _ world
  | emitter id =>
    by_cases heq : watched = id
    · subst heq
      cases hcurrent : (world.emitterAt watched).current with
      | none => exact leads_forEach_of_idle h fun _ => hcurrent
      | some builder => exact leads_forEach_self hcurrent h
    · exact leads_forEach_of_idle h fun hid => (heq hid).elim

end Journal

end StagedArrays
