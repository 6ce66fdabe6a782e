import StagedArrays.Context.World

namespace StagedArrays

namespace Elementwise

variable {σ : Type}

/-- Whether operands fit together: equal element types, and a source of rank 0
    or of the extents of the destination. A source of rank 0 stands for each
    element. -/
def checkOperands (destination source : Value) : Outcome Unit := do
  source.ensureDType destination.dtype
  if source.rank ≠ 0 ∧ source.layout.extents ≠ destination.layout.extents then
    throw (.error (.sizeMismatch (← destination.size) (← source.size)))

/-- The element of a source that belongs to given coordinates. A source of rank
    0 is the same for all of them. -/
def sourceElement (context : Context) (source : Value) (coordinates : List Scalar) :
    Action σ Value :=
  if source.rank = 0 then return source else context.element source coordinates

/-- Replaces one element by its combination with that of the source. Both are
    read when the loop comes to them, not before. -/
def updateAt (context : Context) (combine : Value → Value → Action σ Value)
    (destination source : Value) (coordinates : List Scalar) : Action σ Unit := do
  let target ← context.element destination coordinates
  let other ← sourceElement context source coordinates
  context.store target (← combine target other)

/-- Replaces every element of the destination, row-major. Operands are compared
    first, so that nothing is touched if they do not fit. -/
def update (combine : Context → Value → Value → Action σ Value) (destination source : Value) :
    Action σ Unit := do
  checkOperands destination source
  if destination.isAddressable then
    let context ← Action.activeContext
    context.forEach destination.layout (updateAt context (combine context) destination source)
  else .fail (.invalidArgument .destinationNotStorage)

/-- `destination[c] = destination[c] op source[c]` for all coordinates, one
    after the other in storage that both may share. -/
def assignBinary (op : BinaryOp) (destination source : Value) : Action σ Unit :=
  update (fun context target other => context.binary op target other) destination source

/-- `destination[c] = source[c] op destination[c]` for all coordinates. The
    order of operands matters for differences and quotients. -/
def assignBinaryReversed (op : BinaryOp) (destination source : Value) : Action σ Unit :=
  update (fun context target other => context.binary op other target) destination source

/-- Copies one element. The one to be read is found before the one to be
    written. -/
def copyAt (context : Context) (destination source : Value) (coordinates : List Scalar) :
    Action σ Unit := do
  let item ← context.element source coordinates
  let target ← context.element destination coordinates
  context.store target (← context.load item)

/-- Copies every element to a destination of the same type and extents. A source
    of rank 0 is not spread here. -/
def copyInto (destination source : Value) : Action σ Unit := do
  source.ensureDType destination.dtype
  if source.layout.extents ≠ destination.layout.extents then
    throw (.error (.sizeMismatch (← destination.size) (← source.size)))
  let context ← Action.activeContext
  context.forEach source.layout (copyAt context destination source)

/-- Fresh packed storage with the contents of a value. Gaps between its elements
    are not kept. -/
def copy (value : Value) : Action σ Value := do
  let context ← Action.activeContext
  let fresh ← context.allocate value.dtype (← value.layout.contiguous)
  copyInto fresh value
  return fresh

/-- `lhs op rhs` in fresh storage: a copy of the left side, updated in place.
    The copy is made before the operands are compared. -/
def binary (op : BinaryOp) (lhs rhs : Value) : Action σ Value := do
  let fresh ← copy lhs
  assignBinary op fresh rhs
  return fresh

/-- `scalar op operand` in fresh storage: a copy of the operand, updated in
    place with the scalar on the left. -/
def binaryReversed (op : BinaryOp) (scalar operand : Value) : Action σ Value := do
  let fresh ← copy operand
  assignBinaryReversed op fresh scalar
  return fresh

end Elementwise

end StagedArrays
