import StagedArrays.Declaration
import StagedArrays.Numeric.Arithmetic

namespace StagedArrays

/-- How one float type adds, multiplies and starts a sum, and how wide it is.
    Nothing is assumed of the operations. -/
structure DotArithmetic (α : Type) where
  zero : α
  add : α → α → α
  mul : α → α → α
  bytes : Nat

/-- A view of a slice: how far apart its elements lie there, and the elements in
    order. -/
structure StridedView (α : Type) where
  increment : Nat
  elements : List α

/-- Every `increment`-th element of a slice from the first on, `count` in
    all. -/
def StridedView.ofSlice {α : Type} (count increment : Nat) (data : Array α) : StridedView α where
  increment := increment
  elements := (List.range count).filterMap fun k => data[k * increment]?

/-- The library of arrays that the kernels are built on. It grants or refuses a
    view by sizes alone and multiplies two views by what they show; nothing more
    is fixed here, in particular not the order in which it adds. -/
class ArrayLibrary where
  /-- Grants a view of `count` elements, `increment` apart, of a slice of
      `length` elements, `bytes` wide each, or refuses it with a text. -/
  grant : (bytes length count increment : Nat) → Except String Unit
  /-- The inner product of two views. -/
  dot : {α : Type} → DotArithmetic α → StridedView α → StridedView α → α

instance : Inhabited ArrayLibrary where
  default := ⟨fun _ _ _ _ => .ok (), fun arithmetic _ _ => arithmetic.zero⟩

namespace DotArithmetic

def single : DotArithmetic UInt32 := ⟨0, BinaryOp.add.onSingle, BinaryOp.mul.onSingle, 4⟩

def double : DotArithmetic UInt64 := ⟨0, BinaryOp.add.onDouble, BinaryOp.mul.onDouble, 8⟩

variable {α : Type} (arithmetic : DotArithmetic α)

/-- A view of `count` elements, `increment` apart. Counts and increments that
    make no view are refused before the library is asked. -/
def view [ArrayLibrary] (count increment : Int) (data : Array α) : Except ValueError (StridedView α) :=
  if count < 0 then .error (.invalidArgument (.negativeCount count))
  else if increment ≤ 0 then .error (.notImplemented (.dotIncrement increment))
  else
    match ArrayLibrary.grant arithmetic.bytes data.size count.toNat increment.toNat with
    | .error text => .error (.invalidArgument (.refusedView text))
    | .ok () => .ok (.ofSlice count.toNat increment.toNat data)

/-- The inner product of two strided views. Both are checked before the library
    is asked for it. -/
def dot [ArrayLibrary] (count : Int) (xs : Array α) (xIncrement : Int) (ys : Array α) (yIncrement : Int) :
    Except ValueError α := do
  let x ← arithmetic.view count xIncrement xs
  let y ← arithmetic.view count yIncrement ys
  return ArrayLibrary.dot arithmetic x y

end DotArithmetic

namespace Numeric

/-- The word of a single; zero for any other immediate. The kernel for singles
    has checked types by then. -/
def singleWord : Numeric → UInt32
  | f32 word => word
  | _ => 0

/-- The word of a double; zero for any other immediate. The kernel for doubles
    has checked types by then. -/
def doubleWord : Numeric → UInt64
  | f64 word => word
  | _ => 0

end Numeric

namespace HostArgument

/-- A 32-bit integer argument. Counts and increments of the kernels are of this
    type. -/
def asCount (arg : HostArgument) : Except ValueError Int := do
  match ← arg.asScalar with
  | .i32 value => return value.toInt
  | other => throw (.typeMismatch .i32 other.dtype)

/-- The elements of a buffer argument of a given type, from its offset on. An
    offset may lead to the end, but not beyond it. -/
def elementsFrom (dtype : DType) (ref : HostRef) (offset : Nat) : HeapM (Array Numeric) := do
  let elements ← (← HeapM.read ref).elementsOf dtype
  if elements.size < offset then .fail (.invalidArgument (.kernelOffset offset))
  else return elements.extract offset elements.size

end HostArgument

/-- The inner product with the calling convention of the vendor kernels: element
    count, first vector and increment, second vector and increment. -/
def vendorDot [ArrayLibrary] {α : Type} (arithmetic : DotArithmetic α) (dtype : DType) (read : Numeric → α)
    (write : α → Numeric) : HostFunction
  | [count, x, xIncrement, y, yIncrement] => do
    let (xRef, xOffset) ← x.asBuffer
    let (yRef, yOffset) ← y.asBuffer
    let xs ← HostArgument.elementsFrom dtype xRef xOffset
    let ys ← HostArgument.elementsFrom dtype yRef yOffset
    let n ← count.asCount
    let incx ← xIncrement.asCount
    let incy ← yIncrement.asCount
    return some (write (← arithmetic.dot n (xs.map read) incx (ys.map read) incy))
  | args => .fail (.invalidArgument (.dotArgumentCount args.length))

namespace Kernel

def singleDotSymbol : String := "cblas_sdot"

def doubleDotSymbol : String := "cblas_ddot"

def singleDot [ArrayLibrary] : HostFunction := vendorDot .single .f32 Numeric.singleWord .f32

def doubleDot [ArrayLibrary] : HostFunction := vendorDot .double .f64 Numeric.doubleWord .f64

/-- Binds the kernels under their symbols. Functions of the same symbols are
    replaced. -/
def register [ArrayLibrary] (table : SymbolTable) : SymbolTable :=
  (table.insert singleDotSymbol singleDot).insert doubleDotSymbol doubleDot

end Kernel

end StagedArrays
