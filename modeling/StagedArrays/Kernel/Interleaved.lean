import StagedArrays.Kernel.Dot

namespace StagedArrays

namespace DotArithmetic

variable {α : Type} (arithmetic : DotArithmetic α)

/-- Adds the products of two sequences to a sum, in order. What the longer one
    has beyond the other is left out. -/
def addProducts : (sum : α) → List α → List α → α
  | sum, x :: xs, y :: ys => addProducts (arithmetic.add sum (arithmetic.mul x y)) xs ys
  | sum, _, _ => sum

/-- Adds the products of eight neighbours to eight separate sums. Each lane has
    its own. -/
def addLanes (lanes xs ys : List α) : List α :=
  List.zipWith arithmetic.add lanes (List.zipWith arithmetic.mul xs ys)

/-- Eight sums over whole blocks of eight, and what remains of the sequences,
    fewer than eight elements each. -/
def laneSums : (blocks : Nat) → (lanes xs ys : List α) → List α × List α × List α
  | 0, lanes, xs, ys => (lanes, xs, ys)
  | blocks + 1, lanes, xs, ys =>
    laneSums blocks (arithmetic.addLanes lanes (xs.take 8) (ys.take 8)) (xs.drop 8) (ys.drop 8)

/-- The product of two gapless sequences: eight interleaved sums, added in pairs
    four lanes apart, and then the products that fill no block. -/
def packedDot (xs ys : List α) : α :=
  let blocks := min xs.length ys.length / 8
  let (lanes, xs, ys) := arithmetic.laneSums blocks (List.replicate 8 arithmetic.zero) xs ys
  let pairs := List.zipWith arithmetic.add (lanes.take 4) (lanes.drop 4)
  arithmetic.addProducts (pairs.foldl arithmetic.add arithmetic.zero) xs ys

/-- The product of two sequences as one sum in order. Views with gaps are
    multiplied in this way. -/
def stridedDot (xs ys : List α) : α := arithmetic.addProducts arithmetic.zero xs ys

end DotArithmetic

/-- A view without gaps between its elements. One of a single element has none,
    whatever its increment. -/
def StridedView.Gapless {α : Type} (view : StridedView α) : Prop := view.elements.length ≤ 1 ∨ view.increment = 1

instance {α : Type} (view : StridedView α) : Decidable view.Gapless :=
  inferInstanceAs (Decidable (view.elements.length ≤ 1 ∨ view.increment = 1))

namespace ArrayLibrary

/-- Whether the last element of a view lies within the slice, by the distance to
    it in bytes and in elements. -/
def grantInside (bytes length count increment : Nat) : Except String Unit :=
  let last := (count - 1) * increment
  if Int64.maxValue.toInt < last * bytes then .error "ShapeError/Overflow: arithmetic overflow"
  else if 0 < count ∧ length ≤ last then .error "ShapeError/OutOfBounds: out of bounds indexing"
  else .ok ()

/-- A library with two summations: eight interleaved sums where neither view has
    gaps, and one sum in order otherwise. -/
instance interleaved : ArrayLibrary where
  grant := grantInside
  dot arithmetic x y :=
    if x.Gapless ∧ y.Gapless then arithmetic.packedDot x.elements y.elements
    else arithmetic.stridedDot x.elements y.elements

end ArrayLibrary

end StagedArrays
