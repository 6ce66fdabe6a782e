import StagedArrays.Code.Instruction
import StagedArrays.HostBuffer
import StagedArrays.Layout.Odometer

namespace StagedArrays

/-- Where the data of a value is. An immediate needs no storage; a register and
    an emitted buffer mean something only to the function they belong to. -/
inductive ValueData where
  /-- An immediate, usable from every context. -/
  | constant (x : Numeric)
  /-- Storage on the host, from an offset on. -/
  | host (ref : HostRef) (offset : Nat)
  /-- Storage of a function being emitted, from an offset on. -/
  | buffer (id : BufferId) (offset : Operand)
  /-- The result of an emitted instruction. -/
  | register (id : RegisterId)
  deriving DecidableEq

/-- A typed handle: element type, shape, and the data behind them. Copying the
    handle shares the data. -/
structure Value where
  dtype : DType
  layout : Layout
  data : ValueData
  deriving DecidableEq

namespace Value

def constant (x : Numeric) : Value := ⟨x.dtype, .scalar, .constant x⟩

def register (dtype : DType) (id : RegisterId) : Value := ⟨dtype, .scalar, .register id⟩

/-- Storage at the start of an emitted buffer. Elements further on are found by
    an offset that is computed when the function runs. -/
def emittedBuffer (dtype : DType) (layout : Layout) (id : BufferId) : Value :=
  ⟨dtype, layout, .buffer id (.constant (.ofIndex 0))⟩

/-- A value over given data. Immediates and registers have rank 0, and host data
    must reach as far as the layout does. -/
def make (heap : Heap) (dtype : DType) (layout : Layout) (data : ValueData) : Outcome Value := do
  match data with
  | .constant x =>
    if x.dtype ≠ dtype then throw (.error (.typeMismatch dtype x.dtype))
    layout.ensureRank 0
  | .register _ => layout.ensureRank 0
  | .host ref offset =>
    let buffer := heap.get ref
    if buffer.dtype ≠ dtype then throw (.error (.typeMismatch dtype buffer.dtype))
    let needed ← Word.add offset (← layout.memorySize)
    if buffer.length < needed then throw (.error (.sizeMismatch buffer.length needed))
  | .buffer _ _ => pure ()
  return ⟨dtype, layout, data⟩

/-- The same data seen through another layout. Host storage has to reach as far
    as the layout does, which is checked anew. -/
def withLayout (heap : Heap) (value : Value) (layout : Layout) : Outcome Value :=
  make heap value.dtype layout value.data

def rank (value : Value) : Nat := value.layout.rank

/-- The number of elements. It can be less than the storage that the layout
    spans, and more where elements coincide. -/
def size (value : Value) : Except Fault Nat := value.layout.elementCount

/-- Whether the value refers to storage. What does not can be read but never
    written. -/
def isAddressable (value : Value) : Bool :=
  match value.data with
  | .host .. | .buffer .. => true
  | .constant _ | .register _ => false

/-- 1 for values that refer to storage, 0 for immediates and registers. Types of
    parameters tell the two apart by it. -/
def pointerLevel (value : Value) : UInt8 := if value.isAddressable then 1 else 0

/-- The number that a value is, if it is an immediate. For any other value one
    has to look into storage. -/
def asConstant? (value : Value) : Option Numeric :=
  match value.data with
  | .constant x => some x
  | _ => none

/-- The host buffer behind a value, and where it starts in it. Other values have
    none. -/
def host? (value : Value) : Option (HostRef × Nat) :=
  match value.data with
  | .host ref offset => some (ref, offset)
  | _ => none

def ensureDType (value : Value) (dtype : DType) : Except ValueError Unit :=
  if value.dtype ≠ dtype then .error (.typeMismatch dtype value.dtype) else .ok ()

/-- One element of a host value, at given coordinates. The coordinates are
    checked, and so is the place they lead to. -/
def readAt (buffer : HostBuffer) (offset : Nat) (layout : Layout) (coordinates : List Nat) :
    Outcome Numeric := do
  let index ← Word.add offset (← layout.offset coordinates)
  match buffer.get? index with
  | some x => return x
  | none => throw (.error (.invalidArgument (.readIndex index)))

/-- The elements of an immediate or host value in layout order, converted to
    another type. There has to be room for those of a host value. -/
def toList (heap : Heap) (value : Value) (target : DType) : Outcome (List Numeric) :=
  match value.data with
  | .constant x => .ok [x.cast target]
  | .host ref offset => do
    target.reserve (← value.size)
    let elements ← value.layout.coordinates.mapM (readAt (heap.get ref) offset value.layout)
    return elements.map (·.cast target)
  | .buffer .. | .register _ => .error (.error (.foreignValue .compute))

end Value

namespace ValueType

/-- The type of a value. Its layout is part of it, with increments as well as
    extents. -/
def of (value : Value) : ValueType := ⟨value.dtype, value.pointerLevel, value.layout⟩

/-- Whether a value can stand for a parameter of this type: the element type and
    the level have to agree, and the extents. -/
def check (type : ValueType) (value : Value) : Outcome Unit := do
  value.ensureDType type.dtype
  if value.pointerLevel ≠ type.pointerLevel then
    throw (.error (.invalidArgument
      (.pointerLevel type.pointerLevel.toNat value.pointerLevel.toNat)))
  if type.layout.extents ≠ value.layout.extents then
    throw (.error (.sizeMismatch (← type.layout.elementCount) (← value.size)))

end ValueType

namespace HeapM

/-- Host storage of a given shape. The buffer has to reach as far as the layout
    does. -/
def host (buffer : HostBuffer) (layout : Layout) : HeapM Value := do
  let ref ← alloc buffer
  Value.make (← get) buffer.dtype layout (.host ref 0)

/-- A vector of given elements on the host. It has all of the buffer, without
    gaps. -/
def vector (buffer : HostBuffer) : HeapM Value := do
  let layout ← Layout.packed [buffer.length]
  let ref ← alloc buffer
  return ⟨buffer.dtype, layout, .host ref 0⟩

end HeapM

end StagedArrays
