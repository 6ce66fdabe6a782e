import StagedArrays.Algebra.Elementwise

namespace StagedArrays

namespace Vector

variable {σ : Type}

/-- A vector of given elements on the host. The buffer becomes its storage as it
    is. -/
def ofBuffer (buffer : HostBuffer) : HeapM Vector := do
  Vector.ofValue (← HeapM.vector buffer)

/-- Storage for a number of elements, packed. Nothing is written into it. -/
def allocate (dtype : DType) (size : Nat) : Action σ Vector := do
  let context ← Action.activeContext
  ofValue (← context.allocate dtype (← Layout.packed [size]))

/-- The element at an index, sharing its storage. What is written to it is
    written to the vector. -/
def element (v : Vector) (index : Scalar) : Action σ Scalar := do
  Scalar.ofValue (← (← Action.activeContext).element v.value [index])

/-- Fresh storage with the contents of a vector, without the gaps there may have
    been. -/
def copy (v : Vector) : Action σ Vector := do
  ofValue (← Elementwise.copy v.value)

/-- Updates every element by an operation with a scalar, or with that of a
    vector. -/
def assign (op : BinaryOp) (v : Vector) (operand : Value) : Action σ Unit :=
  Elementwise.assignBinary op v.value operand

/-- `v op operand` in fresh storage. The operand is a vector of the same size,
    or a scalar that goes with each element. -/
def binary (op : BinaryOp) (v : Vector) (operand : Value) : Action σ Vector := do
  ofValue (← Elementwise.binary op v.value operand)

/-- `s op v` in fresh storage. Sums and products may begin with either side, and
    begin with the vector. -/
def scalarFirst (op : BinaryOp) (s : Scalar) (v : Vector) : Action σ Vector := do
  match op with
  | .add | .mul => v.binary op s.value
  | .sub | .div => ofValue (← Elementwise.binaryReversed op s.value v.value)

end Vector

end StagedArrays
