import StagedArrays.Declaration
import StagedArrays.Numeric.Arithmetic

namespace StagedArrays

/-- What one call of an emitted function works on: its registers, and the host
    storage behind each of its buffers. -/
structure Frame where
  registers : Std.HashMap RegisterId Numeric := ∅
  buffers : Std.HashMap BufferId (HostRef × Nat) := ∅

namespace Frame

def assign (frame : Frame) (register : RegisterId) (x : Numeric) : Frame :=
  { frame with registers := frame.registers.insert register x }

def bind (frame : Frame) (buffer : BufferId) (ref : HostRef) (offset : Nat) : Frame :=
  { frame with buffers := frame.buffers.insert buffer (ref, offset) }

/-- The immediate an operand stands for. A register has to be assigned by
    now. -/
def operand (frame : Frame) : Operand → Except ValueError Numeric
  | .constant x => .ok x
  | .register id =>
    match frame.registers[id]? with
    | some x => .ok x
    | none => .error (.invalidArgument (.unassignedRegister id.index))

/-- The host element that a buffer and an offset lead to. It is not compared
    with the length of the buffer here, but when it is read or written. -/
def address (frame : Frame) (buffer : BufferId) (offset : Operand) : Outcome (HostRef × Nat) :=
  match frame.buffers[buffer]? with
  | none => .error (.error (.invalidArgument (.unboundBuffer buffer.index)))
  | some (ref, base) => do
    let index ← (← frame.operand offset).asIndex
    return (ref, ← Word.add base index)

/-- What a call hands over, once its operands are read. -/
def argument (frame : Frame) : CallArgument → Outcome HostArgument
  | .scalar operand => return .scalar (← frame.operand operand)
  | .buffer buffer offset => do
    let (ref, index) ← frame.address buffer offset
    return .buffer ref index

/-- Binds one argument. Scalars go to registers and buffers to buffers; the
    element type has to be the declared one, and a buffer has to span the
    declared layout. -/
def bindArgument (frame : Frame) (heap : Heap) (function : String) (binding : ParameterBinding)
    (type : ValueType) (arg : HostArgument) : Outcome Frame :=
  match binding, arg with
  | .register register, .scalar x =>
    if x.dtype ≠ type.dtype then .error (.error (.typeMismatch type.dtype x.dtype))
    else .ok (frame.assign register x)
  | .buffer id, .buffer ref offset =>
    let storage := heap.get ref
    if storage.dtype ≠ type.dtype then .error (.error (.typeMismatch type.dtype storage.dtype))
    else do
      let needed ← Word.add offset (← type.layout.memorySize)
      if storage.length < needed then throw (.error (.sizeMismatch needed storage.length))
      return frame.bind id ref offset
  | _, _ => .error (.error (.invalidArgument (.argumentKind function)))

/-- Binds arguments in order, as far as bindings and parameters go. The first
    that does not fit ends the call. -/
def bindArguments (heap : Heap) (function : String) :
    List ParameterBinding → List ValueType → List HostArgument → Frame → Outcome Frame
  | binding :: bindings, type :: types, arg :: args, frame => do
    bindArguments heap function bindings types args (← frame.bindArgument heap function binding type arg)
  | _, _, _, frame => .ok frame

/-- Gives each buffer that the function declares for itself zeroed storage,
    whether the body comes to use it or not. -/
def bindLocals : List BufferDeclaration → Frame → HeapM Frame
  | [], frame => pure frame
  | declaration :: rest, frame =>
    if declaration.isLocal then do
      let ref ← HeapM.alloc (← HostBuffer.allocate declaration.dtype declaration.length)
      bindLocals rest (frame.bind declaration.id ref 0)
    else bindLocals rest frame

section BindLocals

variable {declaration : BufferDeclaration} {frame : Frame} {heap : Heap}

/-- A buffer of the caller's is given nothing. It was bound with the
    arguments. -/
theorem bindLocals_of_isLocal_eq_false (h : declaration.isLocal = false) (rest : List BufferDeclaration) :
    bindLocals (declaration :: rest) frame = bindLocals rest frame := by
  rw [bindLocals, if_neg (h ▸ Bool.false_ne_true)]

/-- Where there is room, a buffer is bound to zeros under the next reference,
    and the next declaration follows. -/
theorem runFrom_bindLocals_of_reserve (h : declaration.isLocal = true)
    (hroom : declaration.dtype.reserve declaration.length = .ok ()) (rest : List BufferDeclaration) :
    (bindLocals (declaration :: rest) frame).runFrom heap =
      (bindLocals rest (frame.bind declaration.id ⟨heap.buffers.size⟩ 0)).runFrom
        (heap.add (.zeros declaration.dtype declaration.length)).2 := by
  rw [bindLocals, if_pos h, HostBuffer.allocate_of_reserve hroom]
  rfl

/-- Without room for a buffer there is no call. Buffers that were made before it
    stay, and nothing refers to them. -/
theorem runFrom_bindLocals_of_full {fault : Fault} (h : declaration.isLocal = true)
    (hroom : declaration.dtype.reserve declaration.length = .error fault) (rest : List BufferDeclaration) :
    (bindLocals (declaration :: rest) frame).runFrom heap = (.error (.fault fault), heap) := by
  rw [bindLocals, if_pos h, HostBuffer.allocate_of_reserve_error hroom]
  rfl

end BindLocals

end Frame

/-- A call in progress: its own registers and buffers, and the heap it shares
    with its caller. -/
structure Running where
  frame : Frame
  heap : Heap

/-- A step of a call in progress. What it has written stays if the call
    fails. -/
abbrev RunM (α : Type) := Stateful ValueError Running α

namespace RunM

def onHeap {α : Type} (action : HeapM α) : RunM α :=
  .focus (fun ⟨frame, heap⟩ => (heap, (⟨frame, ·⟩))) action

def frame : RunM Frame := return (← get).frame

def operand (operand : Operand) : RunM Numeric := do (← frame).operand operand

def address (buffer : BufferId) (offset : Operand) : RunM (HostRef × Nat) := do
  (← frame).address buffer offset

def assign (register : RegisterId) (x : Numeric) : RunM Unit :=
  modify fun running => { running with frame := running.frame.assign register x }

/-- The immediates and places of call arguments, from the first on. One that
    cannot be read ends the call that is to be made. -/
def arguments : List CallArgument → RunM (List HostArgument)
  | [] => pure []
  | arg :: args => do
    let first ← (← frame).argument arg
    return first :: (← arguments args)

/-- Keeps the result of a call where the caller wants it. If it wants one there
    has to be one. -/
def keep (symbol : String) (result : Option Numeric) : Option RegisterId → RunM Unit
  | none => pure ()
  | some output =>
    match result with
    | some x => assign output x
    | none => .fail (.invalidArgument (.noValueReturned symbol))

end RunM

mutual

/-- Executes an instruction. Calls go to `call`, which knows how deep calls may
    still be nested. -/
def Instruction.run (call : String → HostFunction) : Instruction → RunM Unit
  | .binary output op a b => do
    let x ← RunM.operand a
    let y ← RunM.operand b
    RunM.assign output (← x.binary op y)
  | .load output buffer offset => do
    let (ref, index) ← RunM.address buffer offset
    match (← RunM.onHeap (HeapM.read ref)).get? index with
    | some x => RunM.assign output x
    | none => .fail (.invalidArgument (.loadOutOfRange buffer.index index))
  | .store buffer offset value => do
    let (ref, index) ← RunM.address buffer offset
    let x ← RunM.operand value
    RunM.onHeap (HeapM.write ref index x)
  | .loop induction extent body =>
    Stateful.repeatFrom (fun index => do
      RunM.assign induction (.ofIndex index)
      runBlock call body) extent 0
  | .call symbol args output => do
    let arguments ← RunM.arguments args
    let result ← RunM.onHeap (call symbol arguments)
    RunM.keep symbol result output

/-- Executes instructions in order, up to the first that fails. What those
    before it did stays. -/
def runBlock (call : String → HostFunction) : List Instruction → RunM Unit
  | [] => pure ()
  | instruction :: rest => do
    instruction.run call
    runBlock call rest

end

namespace EmittedFunction

/-- Calls the function with a new frame. Arguments are bound first, then storage
    of its own is made, and only then the body is executed. -/
def invoke (call : String → HostFunction) (function : EmittedFunction) : HostFunction := fun args => do
  if args.length ≠ function.parameters.length then
    throw (.error (.invalidArgument
      (.argumentCount function.name function.parameters.length args.length)))
  let bound ← Frame.bindArguments (← get) function.name function.bindings function.parameters args {}
  let frame ← Frame.bindLocals function.buffers bound
  fun heap =>
    let body : RunM (Option Numeric) := do
      runBlock call function.body
      match function.result with
      | some operand => return some (← RunM.operand operand)
      | none => return none
    let (result, running) := Stateful.runFrom body ⟨frame, heap⟩
    (result, running.heap)

end EmittedFunction

/-- An emitted module whose call targets are all known, in the module or in a
    table beside it. -/
structure CompiledModule where
  program : EmittedModule
  symbols : SymbolTable

namespace CompiledModule

/-- Calls a symbol with at most `depth` calls inside one another. The module's
    own functions come before those of the table. -/
def call (compiled : CompiledModule) : (depth : Nat) → String → HostFunction
  | 0, _, _ => throw (.fault .callsTooDeep)
  | depth + 1, symbol, args =>
    match compiled.program.bySymbol? symbol with
    | some function => function.invoke (compiled.call depth) args
    | none =>
      match compiled.symbols.get? symbol with
      | some function => function args
      | none => .fail (.unresolvedSymbol symbol)

/-- Calls a function by its symbol or declared name. Calls within it may be
    nested `depth` deep. -/
def invoke (compiled : CompiledModule) (depth : Nat) (name : String) : HostFunction := fun args =>
  match compiled.program.lookup? name with
  | some function => function.invoke (compiled.call depth) args
  | none => .fail (.unresolvedSymbol name)

end CompiledModule

namespace EmittedModule

/-- The first symbol of a list that neither the module nor the table has.
    Compiling reports this one and none after it. -/
def unresolved? (program : EmittedModule) (table : SymbolTable) (symbols : List String) :
    Option String :=
  symbols.find? fun symbol => (program.bySymbol? symbol).isNone && !table.contains symbol

/-- Resolves every call target. Nothing is translated: the module and its table
    are kept side by side. -/
def compile (program : EmittedModule) (table : SymbolTable) : Except ValueError CompiledModule :=
  match program.unresolved? table (program.functions.flatMap EmittedFunction.referencedSymbols) with
  | some symbol => .error (.unresolvedSymbol symbol)
  | none => .ok ⟨program, table⟩

end EmittedModule

end StagedArrays
