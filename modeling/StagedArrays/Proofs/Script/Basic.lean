import StagedArrays.Context.Definition
import StagedArrays.Proofs.Allocator.Advance

namespace StagedArrays

namespace Stateful

/-- An error becomes a value; a fault stays one. What a program does after an
    error is thus part of the program. -/
def caught {ε σ α : Type} (action : Stateful ε σ α) : Stateful ε σ (Except ε α) := do
  match ← attempt action with
  | .ok value => return .ok value
  | .error (.error cause) => return .error cause
  | .error (.fault fault) => throw (.fault fault)

/-- An action that succeeds is not changed by catching errors. Its value is
    marked as a success. -/
theorem runFrom_caught_of_ok {ε σ α : Type} {action : Stateful ε σ α} {state after : σ} {value : α}
    (h : action.runFrom state = (.ok value, after)) : (caught action).runFrom state = (.ok (.ok value), after) := by
  unfold caught
  rw [runFrom_bind_of_ok (runFrom_attempt_eq_ok.mpr h)]
  rfl

end Stateful

/-- What a program asks of a context. The same operations are performed directly
    and recorded. -/
inductive Operation where
  | allocate (dtype : DType) (layout : Layout)
  | element (value : Value) (coordinates : List Scalar)
  | load (value : Value)
  | store (destination source : Value)
  | binary (op : BinaryOp) (a b : Value)
  | call (function : FunctionDeclaration) (args : List Value)

namespace Operation

variable {σ : Type}

/-- Performs an operation. What it hands out is its result, if it hands out
    anything. -/
def run (context : Context) : Operation → Action σ (Option Value)
  | allocate dtype layout => some <$> context.allocate dtype layout
  | element value coordinates => some <$> context.element value coordinates
  | load value => some <$> context.load value
  | store destination source => (fun _ => none) <$> context.store destination source
  | binary op a b => some <$> context.binary op a b
  | call function args => context.call function args

/-- What an emitter does for an operation. It works on the function in
    progress. -/
def emit : Operation → EmitterM (Option Value)
  | allocate dtype layout => some <$> Emit.allocate dtype layout
  | element value coordinates => some <$> Emit.element value coordinates
  | load value => some <$> Emit.load value
  | store destination source => (fun _ => none) <$> Emit.store destination source
  | binary op a b => some <$> Emit.binary op a b
  | call function args => Emit.call function args

theorem runFrom_map_onEmitter {α β : Type} (f : α → β) (id : EmitterId) (action : EmitterM α) (world : World σ) :
    (f <$> Action.onEmitter id action : Action σ β).runFrom world =
      (Action.onEmitter id (f <$> action)).runFrom world := by
  rw [map_eq_pure_bind, map_eq_pure_bind, Action.runFrom_onEmitter, Stateful.runFrom_bind, Stateful.runFrom_bind,
    Action.runFrom_onEmitter]
  rcases action.runFrom (world.emitters[id.index]?.getD default) with ⟨_ | _, _⟩ <;> rfl

/-- An operation in the context of an emitter is the one that it records. The
    rest of the world takes no part. -/
theorem runFrom_run_emitter (operation : Operation) (id : EmitterId) (world : World σ) :
    (operation.run (.emitter id)).runFrom world = (Action.onEmitter id operation.emit).runFrom world := by
  cases operation with
  | call function args => rfl
  | _ => exact runFrom_map_onEmitter _ _ _ _

/-- Working on the host changes nothing but the heap. The emitters and the
    contexts are left alone. -/
theorem exists_runFrom_compute (operation : Operation) (world : World σ) :
    ∃ outcome heap, (operation.run .compute).runFrom world = (outcome, { world with heap }) := by
  have hmap {α β : Type} (f : α → β) (action : HeapM α) : ∃ outcome heap,
      (f <$> Action.onHeap action : Action σ β).runFrom world = (outcome, { world with heap }) := by
    rw [map_eq_pure_bind, Stateful.runFrom_bind, Action.runFrom_onHeap]
    rcases action.runFrom world.heap with ⟨_ | _, heap⟩ <;> exact ⟨_, heap, rfl⟩
  cases operation with
  | call function args => exact ⟨_, _, rfl⟩
  | _ => exact hmap _ _

end Operation

/-- What happens to the function that an emitter has in progress. Events are
    noted whether or not something fails. -/
inductive EmitterEvent where
  /-- An operation has ended, and this is what it has recorded. -/
  | performed (operation : Operation) (outcome : Except (Failure ValueError) (Option Value))
      (code : List Instruction)
  /-- The body of a nest of loops begins. -/
  | opened (coordinates : List Scalar)
  /-- The body of a nest of loops has ended. -/
  | closed
  /-- The body of the function has ended with a result, and this is recorded to
      return it. -/
  | returned (result : Option Value) (code : List Instruction)

/-- The instructions recorded in an event. For loops these are in the events
    between. -/
def EmitterEvent.code : EmitterEvent → List Instruction
  | performed _ _ code => code
  | returned _ code => code
  | opened _ | closed => []

/-- How a function came about: its declaration, the values its parameters are
    known by, and what happened since, the earliest first. -/
structure Transcript where
  declared : FunctionDeclaration := { name := "" }
  parameters : List Value := []
  events : List EmitterEvent := []

/-- The instructions that the body of a function has emitted, in the order of
    emission. -/
def Transcript.emitted (transcript : Transcript) : List Instruction := transcript.events.flatMap EmitterEvent.code

/-- The notes on one emitter: on the function in progress, and on each function
    it has recorded. -/
structure Page where
  draft : Transcript := {}
  recorded : List Transcript := []

/-- Notes that go on with further events. -/
def Page.extend (page : Page) (events : List EmitterEvent) : Page :=
  { page with draft := { page.draft with events := page.draft.events ++ events } }

/-- Notes on all emitters. No operation reads them, so that they make no
    difference to a run. -/
abbrev Journal := EmitterId → Page

namespace Emitter

/-- The instructions of the innermost open block. -/
def innermost (emitter : Emitter) : List Instruction :=
  match emitter.current with
  | some builder => (builder.blocks.headD #[]).toList
  | none => []

/-- The instructions by which the innermost open block has grown. They are
    compared before and after an operation. -/
def codeUntil (emitter after : Emitter) : List Instruction := after.innermost.drop emitter.innermost.length

end Emitter

namespace Journal

/-- Changes the notes on an emitter. The emitter itself is not changed. -/
def amend (id : EmitterId) (change : Page → Page) : Action Journal Unit :=
  modify fun world => { world with client := Function.update world.client id (change (world.client id)) }

/-- Notes what happens to the function in progress. The event is added at the
    end of its draft. -/
def note (id : EmitterId) (event : EmitterEvent) : Action Journal Unit := amend id (·.extend [event])

/-- Performs an operation, and notes what it has recorded. On the host nothing
    is noted. -/
def perform (context : Context) (operation : Operation) : Action Journal (Option Value) :=
  match context with
  | .compute => operation.run .compute
  | .emitter id => do
    let before := (← get).emitterAt id
    let outcome ← Stateful.attempt (operation.run (.emitter id))
    note id (.performed operation outcome (before.codeUntil ((← get).emitterAt id)))
    Stateful.settle outcome

/-- Notes where the body of a nest of loops begins and ends, however it ends. On
    the host nothing is noted. -/
def bracket (context : Context) (coordinates : List Scalar) (body : Action Journal Unit) : Action Journal Unit :=
  match context with
  | .compute => body
  | .emitter id => do
    note id (.opened coordinates)
    let outcome ← Stateful.attempt body
    note id .closed
    Stateful.settle outcome

/-- The body of a function, with notes from its parameters to what is recorded
    to return its result. -/
def body (id : EmitterId) (function : FunctionDeclaration) (action : List Value → Action Journal (Option Value))
    (parameters : List Value) : Action Journal (Option Value) := do
  amend id ({ · with draft := { declared := function, parameters } })
  let result ← action parameters
  let emitter := (← get).emitterAt id
  note id (.returned result (emitter.codeUntil ((Emitter.resultOperand function result).runFrom emitter).2))
  return result

/-- Defines a function, and keeps the notes on it if it is recorded. Otherwise
    they are dropped with it. -/
def define (id : EmitterId) (function : FunctionDeclaration) (action : List Value → Action Journal (Option Value)) :
    Action Journal Unit := do
  Action.defineFunction id function (body id function action)
  amend id fun page => { page with recorded := page.recorded ++ [page.draft] }

end Journal

/-- What a program does besides: it works on host storage, enters and leaves
    contexts, finishes modules, and changes no emitter. -/
structure Aside (α : Type) where
  action : Action Journal α
  emitters_eq : ∀ world, (action.runFrom world).2.emitters = world.emitters
  client_eq : ∀ world, (action.runFrom world).2.client = world.client

/-- Programs that use the library in any way. What comes next may depend on
    every outcome so far, and on everything handed out so far; a program that
    goes on after an error has caught it. -/
inductive Script : Type → Type 1 where
  | done {α : Type} (outcome : Except ValueError α) : Script α
  | aside {α β : Type} (step : Aside β) (next : Except ValueError β → Script α) : Script α
  | newEmitter {α : Type} (moduleName : String) (config : EmitterConfig) (next : EmitterId → Script α) : Script α
  | perform {α : Type} (context : Context) (operation : Operation)
      (next : Except ValueError (Option Value) → Script α) : Script α
  | forEach {α : Type} (context : Context) (layout : Layout) (body : List Scalar → Script Unit)
      (next : Except ValueError Unit → Script α) : Script α
  | define {α : Type} (id : EmitterId) (function : FunctionDeclaration)
      (body : List Value → Script (Option Value)) (next : Except ValueError Unit → Script α) : Script α

namespace Script

/-- Runs a program, and takes notes. The notes are for statements about the run,
    and nothing else depends on them. -/
def run : {α : Type} → Script α → Action Journal α
  | _, done outcome => Stateful.settle (outcome.mapError .error)
  | _, aside step next => do (next (← Stateful.caught step.action)).run
  | _, newEmitter moduleName config next => do (next (← Action.newEmitter moduleName config)).run
  | _, perform context operation next => do
    (next (← Stateful.caught (Journal.perform context operation))).run
  | _, forEach context layout body next => do
    (next (← Stateful.caught (context.forEach layout fun coordinates =>
      Journal.bracket context coordinates (body coordinates).run))).run
  | _, define id function body next => do
    (next (← Stateful.caught (Journal.define id function fun parameters => (body parameters).run))).run

end Script

end StagedArrays
