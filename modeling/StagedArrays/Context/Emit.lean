import StagedArrays.Context.Builder
import StagedArrays.Shaped

namespace StagedArrays

namespace Emit

/-- A rank-0 value as an operand. The contents of storage are loaded first, into
    a register. -/
def operand (value : Value) : EmitterM Operand := do
  value.layout.ensureRank 0
  match value.data with
  | .constant x => return .constant x
  | .register id => return .register id
  | .buffer id offset =>
    return .register (← Emitter.emitWithOutput fun output => .load output id offset)
  | .host .. => .fail (.foreignValue .emitter)

/-- The rank-0 value that an operand stands for. It has no storage, and keeps
    what it holds. -/
def valueOf (dtype : DType) : Operand → Value
  | .constant x => .constant x
  | .register id => .register dtype id

/-- A coordinate as an operand. An immediate is checked against the extent here;
    any other has to be a 64-bit integer. -/
def indexOperand (coordinate : Scalar) (extent : Nat) : EmitterM Operand :=
  match coordinate.value.asConstant? with
  | some x => do
    let index ← x.asIndex
    if extent ≤ index then .fail (.invalidArgument (.constantIndex index extent))
    else return .constant (.ofIndex index)
  | none => do
    coordinate.value.ensureDType .i64
    operand coordinate.value

/-- Adds coordinates times increments to an offset, dimension by dimension. What
    is known while recording is added at once. -/
def offsetOperand : (offset : Operand) → (extents increments : List Nat) → List Scalar →
    EmitterM Operand
  | offset, extent :: extents, increment :: increments, coordinate :: coordinates => do
    let index ← indexOperand coordinate extent
    let term ← Emitter.binaryOperand .mul index (.constant (.ofIndex increment))
    let offset ← Emitter.binaryOperand .add offset term
    offsetOperand offset extents increments coordinates
  | offset, _, _, _ => pure offset

/-- Declares a buffer that spans a layout, within the budget of the function.
    Whether there is room for it is settled by each call. -/
def allocate (dtype : DType) (layout : Layout) : EmitterM Value := do
  let config := (← get).config
  let builder ← Emitter.builder
  let count := builder.localBuffers.length
  if config.maxBuffers ≤ count then
    .fail (.resourceExhausted (.buffers builder.name count))
  else do
    let used ← BufferDeclaration.totalBytes builder.localBuffers
    let length ← layout.memorySize
    let requested ← Word.mul length dtype.size
    let needed ← Word.add used requested
    if config.maxStorageBytes < needed then
      .fail (.resourceExhausted (.storage builder.name needed config.maxStorageBytes))
    else do
      let (id, builder) := builder.newBuffer dtype length .own
      Emitter.setBuilder builder
      return .emittedBuffer dtype layout id

/-- The element at given coordinates. Immediates and registers are their own
    elements. -/
def element (value : Value) (coordinates : List Scalar) : EmitterM Value := do
  value.layout.ensureRank coordinates.length
  match value.data with
  | .buffer id offset =>
    let place ← offsetOperand offset value.layout.extents value.layout.increments coordinates
    return ⟨value.dtype, .scalar, .buffer id place⟩
  | .constant _ | .register _ => return value
  | .host .. => .fail (.foreignValue .emitter)

/-- The contents as an immediate or register. A load is recorded only for
    storage. -/
def load (value : Value) : EmitterM Value := return valueOf value.dtype (← operand value)

/-- Records a store of one rank-0 value to the storage of another. Types are
    compared while recording. -/
def store (destination source : Value) : EmitterM Unit := do
  destination.layout.ensureRank 0
  source.ensureDType destination.dtype
  match destination.data with
  | .buffer id offset =>
    let value ← operand source
    Emitter.setBuilder ((← Emitter.builder).emit (.store id offset value))
  | .host .. => .fail (.foreignValue .emitter)
  | .constant _ | .register _ => .fail (.invalidArgument .storeIntoImmediate)

/-- Records an operation on two values of rank 0. Immediates are combined at
    once, and their result is an immediate. -/
def binary (op : BinaryOp) (a b : Value) : EmitterM Value := do
  b.ensureDType a.dtype
  let x ← operand a
  let y ← operand b
  return valueOf a.dtype (← Emitter.binaryOperand op x y)

/-- Opens one loop per extent, the first outermost, and gives their induction
    registers. -/
def openLoops : (extents : List Nat) → EmitterM (List RegisterId)
  | [] => pure []
  | _ :: extents => do
    let (register, builder) := (← Emitter.builder).newRegister
    Emitter.setBuilder builder.openBlock
    return register :: (← openLoops extents)

/-- Closes the loops of given registers and extents, the last first. Each body
    becomes an instruction of the block around it. -/
def closeLoops : (registers : List RegisterId) → (extents : List Nat) → EmitterM Unit
  | register :: registers, extent :: extents => do
    closeLoops registers extents
    let (body, builder) := (← Emitter.builder).closeBlock
    Emitter.setBuilder (builder.emit (.loop register extent body))
  | _, _ => pure ()

/-- What a recorded call hands over for a value. -/
def callArgument (value : Value) : EmitterM CallArgument :=
  match value.data with
  | .buffer id offset => return .buffer id offset
  | .constant _ | .register _ => return .scalar (← operand value)
  | .host .. => .fail (.foreignValue .emitter)

/-- What a recorded call hands over for each value, from the first on. -/
def callArguments : List Value → EmitterM (List CallArgument)
  | [] => pure []
  | value :: values => do
    let first ← callArgument value
    return first :: (← callArguments values)

/-- Records a call to the symbol of a function. A declared result goes to a
    register. -/
def call (function : FunctionDeclaration) (args : List Value) : EmitterM (Option Value) := do
  let symbol := function.symbol (← get).moduleName
  let args ← callArguments args
  match function.returnType with
  | some type =>
    let output ← Emitter.emitWithOutput fun output => .call symbol args (some output)
    return some (.register type.dtype output)
  | none =>
    Emitter.setBuilder ((← Emitter.builder).emit (.call symbol args none))
    return none

end Emit

end StagedArrays
