import StagedArrays.Context.Direct
import StagedArrays.Context.Emit

namespace StagedArrays

/-- Names an emitter of a world. Emitters are numbered as they are set up, and
    none is taken away. -/
structure EmitterId where
  index : Nat
  deriving DecidableEq

/-- Where operations go: straight to host storage, or to an emitter that records
    them for later. -/
inductive Context where
  | compute
  | emitter (id : EmitterId)
  deriving DecidableEq

namespace Context

def kind : Context → ContextKind
  | compute => .compute
  | emitter _ => .emitter

end Context

/-- Everything operations act on. The entered contexts are a stack with the
    active one first; `client` is whatever the code that uses the library
    keeps. -/
structure World (σ : Type) where
  heap : Heap := ⟨#[]⟩
  emitters : Array Emitter := #[]
  contexts : List Context := []
  client : σ

/-- An operation of the library, or a program of such operations. Host storage,
    emitters and contexts may all change. -/
abbrev Action (σ α : Type) := Stateful ValueError (World σ) α

/-- The right to leave a context: the depth of the stack just after it was
    entered. -/
structure Guard where
  depth : Nat
  deriving DecidableEq

namespace Action

variable {σ α : Type}

def onHeap (action : HeapM α) : Action σ α :=
  .focus (fun ⟨heap, emitters, contexts, client⟩ => (heap, (⟨·, emitters, contexts, client⟩)))
    action

def onEmitter (id : EmitterId) (action : EmitterM α) : Action σ α :=
  .focus (fun world => (world.emitters[id.index]?.getD default, fun emitter =>
    { world with emitters := world.emitters.setIfInBounds id.index emitter })) action

/-- Sets up an emitter, with no function in progress and none recorded. -/
def newEmitter (moduleName : String) (config : EmitterConfig) : Action σ EmitterId := do
  let world ← get
  set { world with emitters := world.emitters.push { moduleName, config } }
  return ⟨world.emitters.size⟩

/-- How many contexts are entered. A guard remembers the depth it was handed out
    at. -/
def contextDepth : Action σ Nat := return (← get).contexts.length

/-- The context entered last. If there is none, the operation that asks for it
    fails. -/
def activeContext : Action σ Context := do
  match (← get).contexts with
  | context :: _ => return context
  | [] => .fail .noActiveContext

/-- Makes a context the active one, until its guard is dropped. -/
def enter (context : Context) : Action σ Guard := do
  let world ← get
  set { world with contexts := context :: world.contexts }
  return ⟨world.contexts.length + 1⟩

/-- Leaves the context of a guard, which has to be the active one. Any other
    guard runs into an assertion, and the stack stays as it is. -/
def leave (guard : Guard) : Action σ Unit := do
  let world ← get
  if world.contexts.length = guard.depth then
    set { world with contexts := world.contexts.tail }
  else
    throw (.fault (.guardOutOfOrder world.contexts.length guard.depth))

/-- Runs `body` with a context active, and leaves the context however it
    ends. -/
def withContext (context : Context) (body : Action σ α) : Action σ α := do
  let guard ← enter context
  let result ← Stateful.attempt body
  match result with
  | .error (.fault fault) =>
    discard (Stateful.attempt (leave guard))
    throw (.fault fault)
  | _ =>
    leave guard
    Stateful.settle result

/-- Runs `body` on the active context if it is of the given kind. With any other
    there is nothing to run and no result. -/
def forKind (kind : ContextKind) (body : Context → Action σ α) : Action σ (Option α) := do
  let context ← activeContext
  if context.kind = kind then return some (← body context) else return none

end Action

namespace Context

variable {σ : Type}

/-- Storage stays usable while this number does not change. An emitter begins a
    new scope with every function. -/
def storageScope : Context → Action σ Nat
  | compute => pure 0
  | emitter id => .onEmitter id (return (← get).scope)

/-- Fresh storage for a layout: zeros on the host, or a buffer of the function
    being emitted. -/
def allocate (context : Context) (dtype : DType) (layout : Layout) : Action σ Value :=
  match context with
  | compute => .onHeap (Direct.allocate dtype layout)
  | emitter id => .onEmitter id (Emit.allocate dtype layout)

/-- The rank-0 view of one element. It shares storage with the value it is taken
    from. -/
def element (context : Context) (value : Value) (coordinates : List Scalar) : Action σ Value :=
  match context with
  | compute => .onHeap (Direct.element value coordinates)
  | emitter id => .onEmitter id (Emit.element value coordinates)

/-- The contents of a rank-0 value, as they are at this point of the program. -/
def load (context : Context) (value : Value) : Action σ Value :=
  match context with
  | compute => .onHeap (Direct.load value)
  | emitter id => .onEmitter id (Emit.load value)

/-- Writes one rank-0 value to the storage of another, at once or when the
    function being emitted is called. -/
def store (context : Context) (destination source : Value) : Action σ Unit :=
  match context with
  | compute => .onHeap (Direct.store destination source)
  | emitter id => .onEmitter id (Emit.store destination source)

/-- `a op b` for rank-0 values. The result has no storage. -/
def binary (context : Context) (op : BinaryOp) (a b : Value) : Action σ Value :=
  match context with
  | compute => .onHeap (Direct.binary op a b)
  | emitter id => .onEmitter id (Emit.binary op a b)

/-- Runs `body` for the coordinates of a layout, row-major. Directly it runs
    once for each; an emitter runs it once inside a nest of loops, which it
    closes even if the body fails. -/
def forEach (context : Context) (layout : Layout) (body : List Scalar → Action σ Unit) :
    Action σ Unit :=
  match context with
  | compute => layout.forCoordinates fun coordinates => body (coordinates.map Scalar.ofIndex)
  | emitter id => do
    let registers ← Action.onEmitter id (Emit.openLoops layout.extents)
    let result ← Stateful.attempt (body (registers.map (Scalar.ofRegister .i64)))
    match result with
    | .error (.fault fault) => throw (.fault fault)
    | _ =>
      Action.onEmitter id (Emit.closeLoops registers layout.extents)
      Stateful.settle result

/-- Calls a declared function: its host definition at once, or its symbol when
    the function being emitted is called. -/
def call (context : Context) (function : FunctionDeclaration) (args : List Value) :
    Action σ (Option Value) :=
  match context with
  | compute => .onHeap (Direct.call function args)
  | emitter id => .onEmitter id (Emit.call function args)

end Context

namespace FunctionDeclaration

variable {σ : Type}

/-- Calls a function in a context. Arguments are checked before, the result
    after. -/
def callIn (function : FunctionDeclaration) (context : Context) (args : List Value) :
    Action σ (Option Value) := do
  function.checkArguments args
  let result ← context.call function args
  match function.returnType, result with
  | some type, some value =>
    value.ensureDType type.dtype
    return result
  | some _, none => .fail (.invalidArgument (.resultNotProduced function.name))
  | none, _ => return result

/-- Calls a function in the active context. Arguments are checked there before
    anything else happens. -/
def call (function : FunctionDeclaration) (args : List Value) : Action σ (Option Value) := do
  function.callIn (← Action.activeContext) args

end FunctionDeclaration

end StagedArrays
