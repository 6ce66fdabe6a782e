import StagedArrays.Declaration
import StagedArrays.Numeric.Arithmetic

namespace StagedArrays

/-- Static storage that one emitted function may declare: so many buffers, and
    so many bytes in all of them. -/
structure EmitterConfig where
  maxBuffers : Nat := 256
  maxStorageBytes : Nat := 1 <<< 20

/-- A function being emitted. The last block is the innermost open loop body,
    the first the function's own; each is kept in order of emission. -/
structure FunctionBuilder where
  name : String
  symbol : String
  parameters : List ValueType
  returnType : Option ValueType
  bindings : Array ParameterBinding := #[]
  buffers : Array BufferDeclaration := #[]
  blocks : List (Array Instruction) := [#[]]
  nextRegister : Nat := 0

namespace FunctionBuilder

/-- A register that was not in use. Registers are never given back. -/
def newRegister (builder : FunctionBuilder) : RegisterId × FunctionBuilder :=
  (⟨builder.nextRegister⟩, { builder with nextRegister := builder.nextRegister + 1 })

/-- Declares a buffer under the next number. Buffers are never given back. -/
def newBuffer (builder : FunctionBuilder) (dtype : DType) (length : Nat) (source : BufferSource) :
    BufferId × FunctionBuilder :=
  let id : BufferId := ⟨builder.buffers.size⟩
  (id, { builder with buffers := builder.buffers.push ⟨id, dtype, length, source⟩ })

/-- Appends an instruction to the innermost open block. With no block open it
    would be lost, which does not happen to a function in progress. -/
def emit (builder : FunctionBuilder) (instruction : Instruction) : FunctionBuilder :=
  match builder.blocks with
  | [] => builder
  | block :: outer => { builder with blocks := block.push instruction :: outer }

/-- Opens a loop body. Instructions go into it until it is closed. -/
def openBlock (builder : FunctionBuilder) : FunctionBuilder :=
  { builder with blocks := #[] :: builder.blocks }

/-- Closes the innermost block. Its instructions are handed back, to become the
    body of a loop. -/
def closeBlock (builder : FunctionBuilder) : List Instruction × FunctionBuilder :=
  match builder.blocks with
  | [] => ([], builder)
  | block :: outer => (block.toList, { builder with blocks := outer })

def localBuffers (builder : FunctionBuilder) : List BufferDeclaration :=
  builder.buffers.toList.filter BufferDeclaration.isLocal

/-- Binds one parameter after another: a value of level 0 to a register, any
    other to a buffer that spans its layout. -/
def bindParameters : (index : Nat) → List ValueType → FunctionBuilder →
    Outcome (List Value × FunctionBuilder)
  | _, [], builder => .ok ([], builder)
  | index, type :: types, builder => do
    let (value, builder) ←
      if type.pointerLevel = 0 then do
        type.layout.ensureRank 0
        let (register, builder) := builder.newRegister
        pure (Value.register type.dtype register,
          { builder with bindings := builder.bindings.push (.register register) })
      else do
        let (id, builder) := builder.newBuffer type.dtype (← type.layout.memorySize) (.parameter index)
        pure (Value.emittedBuffer type.dtype type.layout id,
          { builder with bindings := builder.bindings.push (.buffer id) })
    let (values, builder) ← bindParameters (index + 1) types builder
    return (value :: values, builder)

/-- Starts a function, and gives the values its parameters are known by. The
    size of a parameter may overflow, and then no function is started. -/
def start (function : FunctionDeclaration) (moduleName : String) :
    Outcome (List Value × FunctionBuilder) :=
  bindParameters 0 function.parameters
    { name := function.name
      symbol := function.symbol moduleName
      parameters := function.parameters
      returnType := function.returnType }

/-- The finished function. All loops have to be closed, so that the body of the
    function is the one block left. -/
def finish (builder : FunctionBuilder) (result : Option Operand) : Except ValueError EmittedFunction :=
  match builder.blocks with
  | [body] =>
    .ok {
      name := builder.name
      symbol := builder.symbol
      parameters := builder.parameters
      bindings := builder.bindings.toList
      returnType := builder.returnType
      buffers := builder.buffers.toList
      body := body.toList
      result := result }
  | blocks => .error (.invalidArgument (.openBlocks builder.name blocks.length))

end FunctionBuilder

/-- Records operations as a program. Storage belongs to the function being
    emitted when it was allocated; `scope` counts the functions begun. -/
structure Emitter where
  moduleName : String
  config : EmitterConfig := {}
  functions : Array EmittedFunction := #[]
  current : Option FunctionBuilder := none
  scope : Nat := 0

instance : Inhabited Emitter := ⟨{ moduleName := "" }⟩

/-- An operation that an emitter records. What has been recorded stays if the
    operation fails. -/
abbrev EmitterM (α : Type) := Stateful ValueError Emitter α

namespace Emitter

/-- The function being emitted. Without one there is nothing to record into,
    which is an error. -/
def builder : EmitterM FunctionBuilder := do
  match (← get).current with
  | some builder => return builder
  | none => .fail (.invalidArgument .noOpenFunction)

def setBuilder (builder : FunctionBuilder) : EmitterM Unit :=
  modify fun emitter => { emitter with current := some builder }

/-- A register for an instruction, which is then appended. The register is
    handed back as its result. -/
def emitWithOutput (instruction : RegisterId → Instruction) : EmitterM RegisterId := do
  let (register, builder) := (← builder).newRegister
  setBuilder (builder.emit (instruction register))
  return register

/-- Two immediates are combined at once; anything else is recorded. What cannot
    be combined is refused while recording. -/
def binaryOperand (op : BinaryOp) (a b : Operand) : EmitterM Operand :=
  match a, b with
  | .constant x, .constant y => return .constant (← x.binary op y)
  | _, _ => return .register (← emitWithOutput fun output => .binary output op a b)

end Emitter

end StagedArrays
