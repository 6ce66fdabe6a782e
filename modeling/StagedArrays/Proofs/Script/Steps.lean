import StagedArrays.Proofs.Allocator.EmitterOperations
import StagedArrays.Proofs.Script.Session

namespace StagedArrays

open Stateful (Moves)

namespace Emitter

/-- One thing that can happen to an emitter, however it ends: a function is
    begun or ended, an operation is recorded, loops are opened or closed, or a
    result is read for a function to return. -/
inductive Step (emitter : Emitter) : Emitter → Prop where
  | begin (function : FunctionDeclaration) : Step emitter ((startFunction function).runFrom emitter).2
  | perform (operation : Operation) : Step emitter (operation.emit.runFrom emitter).2
  | openLoops (extents : List Nat) : Step emitter ((Emit.openLoops extents).runFrom emitter).2
  | closeLoops (registers : List RegisterId) (extents : List Nat) :
      Step emitter ((Emit.closeLoops registers extents).runFrom emitter).2
  | readResult (function : FunctionDeclaration) (result : Option Value) :
      Step emitter ((resultOperand function result).runFrom emitter).2
  | finish (outcome : Except (Failure ValueError) (Option Operand)) :
      Step emitter ((endFunction outcome).runFrom emitter).2

end Emitter

namespace Script

/-- An order on worlds that goes by the emitters alone, and along which they
    take their steps and new ones come. -/
structure Follows (order : World Journal → World Journal → Prop) : Prop where
  same : ∀ world after, after.emitters = world.emitters → order world after
  step : ∀ world id emitter, (world.emitterAt id).Step emitter → order world (world.replaced id emitter)
  push : ∀ world moduleName config, order world { world with emitters := world.emitters.push { moduleName, config } }

namespace Follows

variable {order : World Journal → World Journal → Prop} [IsPreorder (World Journal) order] {α : Type}

omit [IsPreorder (World Journal) order] in
theorem onEmitter (h : Follows order) {action : EmitterM α} (hstep : ∀ emitter : Emitter, emitter.Step (action.runFrom emitter).2)
    (id : EmitterId) : Moves order (Action.onEmitter id action) :=
  fun world => h.step world id _ (hstep _)

omit [IsPreorder (World Journal) order] in
theorem amend (h : Follows order) (id : EmitterId) (change : Page → Page) : Moves order (Journal.amend id change) :=
  fun world => h.same world _ rfl

/-- Catching an error moves nothing. -/
theorem caught {action : Action Journal α} (haction : Moves order action) : Moves order (Stateful.caught action) := by
  unfold Stateful.caught
  refine .bind (.attempt haction) fun outcome => ?_
  rcases outcome with (cause | fault) | value
  · exact .pure _
  · exact .throw _
  · exact .pure _

/-- A noted operation follows an order if operations and notes do. Where nothing
    is noted the operation alone counts. -/
theorem perform (h : Follows order) (context : Context) (operation : Operation) :
    Moves order (Journal.perform context operation) := by
  cases context with
  | compute =>
    intro world
    obtain ⟨outcome, heap, hrun⟩ := operation.exists_runFrom_compute world
    rw [Journal.perform, hrun]
    exact h.same world _ rfl
  | emitter id =>
    refine .bind (.of_eq fun _ => rfl) fun before => .bind (.attempt fun world => ?_) fun outcome => ?_
    · rw [operation.runFrom_run_emitter]
      exact h.onEmitter (fun _ => .perform operation) id world
    · exact .bind (.of_eq fun _ => rfl) fun _ => .bind (h.amend _ _) fun _ => .settle _

/-- Entering and leaving a context follow it, so that a body inside does if it
    did outside. -/
theorem withContext (h : Follows order) (context : Context) {body : Action Journal α} (hbody : Moves order body) :
    Moves order (Action.withContext context body) := by
  intro world
  have hinside := trans_of order (h.same world { world with contexts := context :: world.contexts } rfl) (hbody _)
  have hleft (contexts : List Context) :=
    trans_of order hinside (h.same _ { (body.runFrom { world with contexts := context :: world.contexts }).2 with contexts } rfl)
  rcases Action.runFrom_withContext context body world with heq | ⟨fault, contexts, heq⟩
  all_goals
    rw [heq]
    exact hleft _

/-- A loop follows it if its body does. -/
theorem forEach (h : Follows order) (context : Context) (layout : Layout) {body : List Scalar → Action Journal Unit}
    (hbody : ∀ coordinates, Moves order (body coordinates)) : Moves order (context.forEach layout body) := by
  cases context with
  | compute =>
    rw [Context.forEach, Layout.forCoordinates_eq]
    exact .forM fun _ => hbody _
  | emitter id =>
    have hclose (registers : List RegisterId) := h.onEmitter (fun _ => .closeLoops registers layout.extents) id
    refine .bind (h.onEmitter (fun _ => .openLoops layout.extents) id) fun registers => ?_
    refine .bind (.attempt (hbody _)) fun outcome => ?_
    rcases outcome with (cause | fault) | ⟨⟩
    · exact .bind (hclose _) fun _ => .settle _
    · exact .throw _
    · exact .bind (hclose _) fun _ => .settle _

/-- So does one pass of a loop with its notes. -/
theorem bracket (h : Follows order) (context : Context) (coordinates : List Scalar) {body : Action Journal Unit}
    (hbody : Moves order body) : Moves order (Journal.bracket context coordinates body) := by
  cases context with
  | compute => exact hbody
  | emitter id =>
    exact .bind (h.amend _ _) fun _ => .bind (.attempt hbody) fun _ => .bind (h.amend _ _) fun _ => .settle _

theorem body (h : Follows order) (id : EmitterId) (function : FunctionDeclaration)
    {action : List Value → Action Journal (Option Value)} (haction : ∀ parameters, Moves order (action parameters))
    (parameters : List Value) : Moves order (Journal.body id function action parameters) :=
  .bind (h.amend _ _) fun _ => .bind (haction _) fun _ => .bind (.of_eq fun _ => rfl) fun _ =>
    .bind (h.amend _ _) fun _ => .pure _

/-- And so does a definition, whatever becomes of it. -/
theorem define (h : Follows order) (id : EmitterId) (function : FunctionDeclaration)
    {action : List Value → Action Journal (Option Value)} (haction : ∀ parameters, Moves order (action parameters)) :
    Moves order (Journal.define id function action) := by
  have hend (outcome : Except (Failure ValueError) (Option Operand)) := h.onEmitter (fun _ => .finish outcome) id
  refine .bind (.bind (h.onEmitter (fun _ => .begin function) id) fun parameters => ?_) fun _ => h.amend _ _
  refine .bind (.attempt (h.withContext _ (.bind (h.body id function haction parameters) fun result =>
    h.onEmitter (fun _ => .readResult function result) id))) fun outcome => ?_
  rcases outcome with (cause | fault) | operand
  · exact hend _
  · exact .throw _
  · exact hend _

/-- Whatever a program does with emitters, as a body of a function or outside,
    is along the order. -/
theorem run (h : Follows order) (script : Script α) : Moves order script.run := by
  induction script with
  | done outcome => exact .settle _
  | aside step next ih => exact .bind (caught fun world => h.same world _ (step.emitters_eq world)) fun _ => ih _
  | newEmitter moduleName config next ih => exact .bind (fun world => h.push world moduleName config) fun _ => ih _
  | perform context operation next ih => exact .bind (caught (h.perform context operation)) fun _ => ih _
  | forEach context layout body next ihBody ih =>
    exact .bind (caught (h.forEach context layout fun coordinates => h.bracket _ _ (ihBody _))) fun _ => ih _
  | define id function body next ihBody ih => exact .bind (caught (h.define id function ihBody)) fun _ => ih _

end Follows

end Script

end StagedArrays
