import StagedArrays.Declaration
import StagedArrays.Numeric.Arithmetic
import StagedArrays.Shaped

namespace StagedArrays

namespace Direct

/-- The immediate that a rank-0 value holds. Values of an emitter cannot be read
    on the host. -/
def read (value : Value) : HeapM Numeric := do
  value.layout.ensureRank 0
  match value.data with
  | .constant x => return x
  | .host ref offset =>
    match (← HeapM.read ref).get? offset with
    | some x => return x
    | none => .fail (.invalidArgument (.hostOffset offset))
  | .buffer .. | .register _ => .fail (.foreignValue .compute)

/-- The coordinate that a scalar holds. It may be an element of storage. -/
def readIndex (coordinate : Scalar) : HeapM Nat := do
  (← read coordinate.value).asIndex

/-- The coordinates that scalars hold, from the first on. The first that is none
    is reported. -/
def readIndices : List Scalar → HeapM (List Nat)
  | [] => pure []
  | coordinate :: rest => do
    let index ← readIndex coordinate
    return index :: (← readIndices rest)

/-- Zeroed host storage that spans a layout. The size of the layout may
    overflow, and so may the capacity of storage of that size. -/
def allocate (dtype : DType) (layout : Layout) : HeapM Value := do
  let length ← layout.memorySize
  HeapM.host (← HostBuffer.allocate dtype length) layout

/-- The element at given coordinates, sharing its storage. Every element of an
    immediate is the immediate itself. -/
def element (value : Value) (coordinates : List Scalar) : HeapM Value := do
  value.layout.ensureRank coordinates.length
  let indices ← readIndices coordinates
  match value.data with
  | .host ref offset =>
    let place ← Word.add offset (← value.layout.offset indices)
    Value.make (← get) value.dtype .scalar (.host ref place)
  | .constant _ => return value
  | .buffer .. | .register _ => .fail (.foreignValue .compute)

/-- The current contents as an immediate. Later writes to the storage do not
    change it. -/
def load (value : Value) : HeapM Value := return .constant (← read value)

/-- Writes the contents of one rank-0 value to the storage of another. The
    source is read before it turns out whether there is storage to write to. -/
def store (destination source : Value) : HeapM Unit := do
  destination.layout.ensureRank 0
  source.ensureDType destination.dtype
  let x ← read source
  match destination.data with
  | .host ref offset => HeapM.write ref offset x
  | .constant _ => .fail (.invalidArgument .storeIntoImmediate)
  | .buffer .. | .register _ => .fail (.foreignValue .compute)

/-- The result of an operation as an immediate. Both operands are read before
    they are combined. -/
def binary (op : BinaryOp) (a b : Value) : HeapM Value := do
  let x ← read a
  let y ← read b
  return .constant (← x.binary op y)

/-- What a host function is given for a value: an immediate as it is, or the
    place where storage begins. -/
def hostArgument (value : Value) : Except ValueError HostArgument :=
  match value.data with
  | .constant x => .ok (.scalar x)
  | .host ref offset => .ok (.buffer ref offset)
  | .buffer .. | .register _ => .error (.foreignValue .compute)

/-- What a host function is given for each value, from the first on. A value of
    an emitter is refused. -/
def hostArguments (values : List Value) : Except ValueError (List HostArgument) :=
  values.mapM hostArgument

/-- Calls the host definition of a function. A function that is only declared
    has none and cannot be called on the host. -/
def call (function : FunctionDeclaration) (args : List Value) : HeapM (Option Value) :=
  match function.hostDefinition with
  | none => .fail (.notImplemented (.hostDefinition function.name))
  | some definition => do
    return (← definition (← hostArguments args)).map Value.constant

end Direct

end StagedArrays
