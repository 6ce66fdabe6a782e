import StagedArrays.Algebra.Elementwise

namespace StagedArrays

namespace Scalar

variable {σ : Type}

/-- Writes the contents of another scalar to the storage of this one. Types have
    to agree, and immediates cannot be written. -/
def store (destination source : Scalar) : Action σ Unit := do
  (← Action.activeContext).store destination.value source.value

/-- Fresh storage that holds zero. Zero is written into it, since what is
    declared in a loop is the same storage in every pass. -/
def allocate (dtype : DType) : Action σ Scalar := do
  let context ← Action.activeContext
  let fresh ← ofValue (← context.allocate dtype .scalar)
  fresh.store (ofNumeric (.zero dtype))
  return fresh

/-- The contents, if they are on the host. What an emitted function has is known
    only when it runs. -/
def contents (s : Scalar) : HeapM Numeric :=
  match s.value.data with
  | .constant x => return x
  | .host ref offset => do
    match (← HeapM.read ref).get? offset with
    | some x => return x
    | none => .fail (.invalidArgument (.hostOffset offset))
  | .buffer .. | .register _ => .fail (.invalidArgument .notOnHost)

/-- Fresh storage with the contents of a scalar, also where that has been an
    immediate. -/
def copy (s : Scalar) : Action σ Scalar := do
  ofValue (← Elementwise.copy s.value)

/-- `a op b` as an immediate or register, without storage. Two immediates are
    combined at once. -/
def combine (op : BinaryOp) (a b : Scalar) : Action σ Scalar := do
  ofValue (← (← Action.activeContext).binary op a.value b.value)

/-- Updates a scalar by an operation. One backed by storage is written through;
    for any other the result takes its place. -/
def assign (op : BinaryOp) (a b : Scalar) : Action σ Scalar :=
  if a.value.isAddressable then do
    Elementwise.assignBinary op a.value b.value
    return a
  else do
    b.value.ensureDType a.dtype
    ofValue (← (← Action.activeContext).binary op a.value b.value)

/-- `a op b` in fresh storage: a copy of the first, updated by the second. -/
def binary (op : BinaryOp) (a b : Scalar) : Action σ Scalar := do
  (← a.copy).assign op b

end Scalar

end StagedArrays
