import StagedArrays.Algebra.Elementwise

namespace StagedArrays

namespace Matrix

variable {σ : Type}

/-- A row-major matrix of given elements on the host. There have to be as many
    as rows and columns ask for. -/
def ofBuffer (rows columns : Nat) (buffer : HostBuffer) : HeapM Matrix := do
  let size ← Word.mul rows columns
  if buffer.length ≠ size then .fail (.sizeMismatch size buffer.length)
  else ofValue (← HeapM.host buffer (← Layout.packed [rows, columns]))

/-- Storage for rows and columns, packed row by row. Nothing is written into
    it. -/
def allocate (dtype : DType) (rows columns : Nat) : Action σ Matrix := do
  let context ← Action.activeContext
  ofValue (← context.allocate dtype (← Layout.packed [rows, columns]))

/-- The element at a row and column, sharing its storage. What is written to it
    is written to the matrix. -/
def element (m : Matrix) (row column : Scalar) : Action σ Scalar := do
  Scalar.ofValue (← (← Action.activeContext).element m.value [row, column])

/-- One row of a host matrix as a vector, sharing its storage. Its first element
    has to be there, so that a matrix without columns has no rows to view. -/
def row (m : Matrix) (row : Nat) : HeapM Vector := do
  let start ← m.value.layout.offset [row, 0]
  let layout ← Layout.strided [m.columns] [← m.value.layout.increment 1]
  match m.value.host? with
  | some (ref, offset) =>
    Vector.ofValue (← Value.make (← get) m.dtype layout (.host ref (← Word.add offset start)))
  | none => .fail (.notImplemented .rowOfEmittedStorage)

/-- Fresh storage with the contents of a matrix, packed row by row. -/
def copy (m : Matrix) : Action σ Matrix := do
  ofValue (← Elementwise.copy m.value)

/-- Updates every element by an operation with a scalar, or with that of a
    matrix. -/
def assign (op : BinaryOp) (m : Matrix) (operand : Value) : Action σ Unit :=
  Elementwise.assignBinary op m.value operand

/-- `m op operand` in fresh storage. The operand is a matrix of the same
    extents, or a scalar that goes with each element. -/
def binary (op : BinaryOp) (m : Matrix) (operand : Value) : Action σ Matrix := do
  ofValue (← Elementwise.binary op m.value operand)

/-- `s + m` in fresh storage. The sum begins with the matrix, which makes no
    difference to it. -/
def scalarAdd (s : Scalar) (m : Matrix) : Action σ Matrix := m.binary .add s.value

/-- `s * m` in fresh storage. The product begins with the matrix, which makes no
    difference to it. -/
def scalarMul (s : Scalar) (m : Matrix) : Action σ Matrix := m.binary .mul s.value

end Matrix

end StagedArrays
