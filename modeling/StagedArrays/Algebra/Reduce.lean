import StagedArrays.Algebra.Loops
import StagedArrays.Algebra.Matrix
import StagedArrays.Algebra.Scalar
import StagedArrays.Algebra.Vector
import StagedArrays.Kernel.Dot

namespace StagedArrays

namespace Vector

variable {σ : Type}

/-- Adds every element of a vector to a scalar with storage. The elements are
    read one by one, so that the scalar may be one of them. -/
def addInto (v : Vector) (total : Scalar) : Action σ Unit :=
  Action.forVector v.value fun index => do
    discard (total.assign .add (← v.element index))

/-- A scalar plus every element, in order. The scalar itself is copied first and
    does not change. -/
def accumulate (v : Vector) (initial : Scalar) : Action σ Scalar := do
  let total ← initial.copy
  v.addInto total
  return total

/-- The sum of the elements, in order from zero. Rounding and overflow are those
    of the partial sums in this order. -/
def sum (v : Vector) : Action σ Scalar := do
  let total ← Scalar.allocate v.dtype
  v.addInto total
  return total

/-- The inner product as a loop of products and sums. Sizes are compared before
    anything is allocated; types are not compared by themselves. -/
def dotByLoop (v w : Vector) : Action σ Scalar := do
  let vSize ← v.size
  let wSize ← w.size
  if vSize ≠ wSize then throw (.error (.sizeMismatch vSize wSize))
  let total ← Scalar.allocate v.dtype
  Action.forVector v.value fun index => do
    let x ← v.element index
    let y ← w.element index
    discard (total.assign .add (← Scalar.combine .mul x y))
  return total

/-- A number as the 32-bit integer that the kernels count with. A greater one is
    refused. -/
def countValue (count : Nat) : Except ValueError Value :=
  if count ≤ Int32.maxValue.toInt then .ok (.constant (.i32 (.ofNat count)))
  else .error (.invalidArgument (.countTooLarge count))

/-- The declaration of a kernel for two vectors. Executed directly it runs the
    kernel; emitted it is a call to the symbol as it stands. -/
def kernelDeclaration (kind : ContextKind) (symbol : String) (kernel : HostFunction)
    (v w : Vector) : FunctionDeclaration where
  name := symbol
  returnType := some (.scalar v.dtype)
  parameters := [.scalar .i32, .pointer v.dtype v.value.layout, .scalar .i32,
    .pointer v.dtype w.value.layout, .scalar .i32]
  decoration :=
    match kind with
    | .compute => .decorated
    | .emitter => .undecorated
  hostDefinition :=
    match kind with
    | .compute => some kernel
    | .emitter => none

/-- The inner product by a kernel. It is handed the count and, for each vector,
    where it starts and how far apart its elements are. -/
def dotByKernel (symbol : String) (kernel : HostFunction) (v w : Vector) : Action σ Scalar := do
  let count ← countValue (← v.size)
  let vIncrement ← countValue (← v.value.layout.increment 0)
  let wIncrement ← countValue (← w.value.layout.increment 0)
  let context ← Action.activeContext
  let function := kernelDeclaration context.kind symbol kernel v w
  let result ← function.callIn context [count, v.value, vIncrement, w.value, wIncrement]
  match result with
  | some value => Scalar.ofValue value
  | none => .fail (.invalidArgument (.noKernelResult symbol))

/-- The inner product. Singles and doubles go to the kernels, any other type to
    the loop. -/
def dot [ArrayLibrary] (v w : Vector) : Action σ Scalar := do
  let vSize ← v.size
  let wSize ← w.size
  if vSize ≠ wSize then throw (.error (.sizeMismatch vSize wSize))
  if v.dtype ≠ w.dtype then throw (.error (.typeMismatch v.dtype w.dtype))
  match v.dtype with
  | .f32 => dotByKernel Kernel.singleDotSymbol Kernel.singleDot v w
  | .f64 => dotByKernel Kernel.doubleDotSymbol Kernel.doubleDot v w
  | .bf16 | .f16 | .i64 | .i32 => dotByLoop v w

end Vector

namespace Matrix

variable {σ : Type}

/-- The sum of the elements, row by row from zero. Only its order tells it from
    that of a vector. -/
def sum (m : Matrix) : Action σ Scalar := do
  let total ← Scalar.allocate m.dtype
  Action.forMatrix m.value fun row column => do
    discard (total.assign .add (← m.element row column))
  return total

/-- Products of matrices are not offered. Asking for one fails at once, in every
    context. -/
def product (_ _ : Matrix) : Action σ Matrix := .fail (.notImplemented .matrixProduct)

/-- Products of matrices and vectors are not offered. Asking for one fails at
    once, in every context. -/
def vectorProduct (_ : Matrix) (_ : Vector) : Action σ Vector :=
  .fail (.notImplemented .matrixVectorProduct)

end Matrix

end StagedArrays
