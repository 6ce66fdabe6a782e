import StagedArrays.Context.World

namespace StagedArrays

namespace Action

variable {σ : Type}

/-- Runs `body` for each index of a one-dimensional value. Under an emitter the
    body runs once, to be recorded. -/
def forVector (value : Value) (body : Scalar → Action σ Unit) : Action σ Unit :=
  match value.layout.extents with
  | [extent] => do
    let context ← activeContext
    context.forEach (← Layout.packed [extent]) fun
      | [index] => body index
      | _ => pure ()
  | extents => .fail (.invalidArgument (.loopRank "one-dimensional" extents.length))

/-- Runs `body` for each row and column of a two-dimensional value,
    row-major. -/
def forMatrix (value : Value) (body : Scalar → Scalar → Action σ Unit) : Action σ Unit :=
  match value.layout.extents with
  | [rows, columns] => do
    let shape ← Layout.packed [rows, columns]
    let context ← activeContext
    context.forEach shape fun
      | [row, column] => body row column
      | _ => pure ()
  | extents => .fail (.invalidArgument (.loopRank "two-dimensional" extents.length))

end Action

end StagedArrays
