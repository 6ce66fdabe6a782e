import StagedArrays.Error

namespace StagedArrays

/-- The shape of a value: how far each dimension extends, and how many elements
    apart its neighbouring entries lie. -/
structure Layout where
  extents : List Nat
  increments : List Nat
  deriving DecidableEq, Inhabited

namespace Layout

/-- The layout of a single element. It has no dimensions, and spans one element
    of storage. -/
def scalar : Layout := ⟨[], []⟩

/-- The increments of a packed layout, and the size of the whole. The products
    are formed from the last dimension on, the outermost included. -/
def packedIncrements : List Nat → Except Fault (List Nat × Nat)
  | [] => .ok ([], 1)
  | extent :: extents => do
    let (increments, size) ← packedIncrements extents
    let whole ← Word.mul size extent
    return (size :: increments, whole)

/-- Row-major and without gaps. The product of the extents may overflow, and
    then there is no such layout. -/
def packed (extents : List Nat) : Except Fault Layout := do
  let (increments, _) ← packedIncrements extents
  return ⟨extents, increments⟩

/-- Each extent has an increment of its own, so that a packed layout is well
    formed without a check. -/
theorem length_packedIncrements {extents increments : List Nat} {size : Nat}
    (h : packedIncrements extents = .ok (increments, size)) : increments.length = extents.length := by
  induction extents generalizing increments size with
  | nil => cases h; rfl
  | cons extent extents ih =>
    simp only [packedIncrements, bind, Except.bind, pure, Except.pure] at h
    split at h
    · cases h
    · next inner hinner =>
      split at h
      · cases h
      · cases h
        simp [ih hinner]

/-- Packing keeps the extents. Only the increments are made anew. -/
theorem extents_eq_of_packed {extents : List Nat} {layout : Layout}
    (h : packed extents = .ok layout) : layout.extents = extents := by
  simp only [packed, bind, Except.bind, pure, Except.pure] at h
  split at h
  · cases h
  · cases h
    rfl

/-- A layout of given extents and increments, one of each per dimension.
    Elements may coincide, and there may be gaps. -/
def strided (extents increments : List Nat) : Except LayoutError Layout :=
  if extents.length ≠ increments.length then
    .error (.incrementCountMismatch extents.length increments.length)
  else
    .ok ⟨extents, increments⟩

def rank (layout : Layout) : Nat := layout.extents.length

/-- The extent of a dimension. It is an error if the layout has no such
    dimension. -/
def extent (layout : Layout) (dim : Nat) : Except LayoutError Nat :=
  match layout.extents[dim]? with
  | some extent => .ok extent
  | none => .error (.noSuchDimension dim layout.rank)

/-- The distance in elements between neighbours along a dimension. Zero lets all
    elements along it coincide. -/
def increment (layout : Layout) (dim : Nat) : Except LayoutError Nat :=
  match layout.increments[dim]? with
  | some increment => .ok increment
  | none => .error (.noSuchDimension dim layout.rank)

/-- The product of the extents, formed from the first on. It overflows even if a
    zero is still to come. -/
def elementCount (layout : Layout) : Except Fault Nat :=
  layout.extents.foldlM Word.mul 1

/-- Adds up how far the last entry of each dimension lies from the first.
    Products and sums may overflow. -/
def spanFrom : (total : Nat) → List (Nat × Nat) → Except Fault Nat
  | total, [] => .ok total
  | total, (extent, increment) :: dims => do
    let reach ← Word.mul (extent - 1) increment
    let total ← Word.add total reach
    spanFrom total dims

/-- How many elements of storage the layout spans, from the origin to the last
    element. Gaps are counted, and without elements it is zero. -/
def memorySize (layout : Layout) : Except Fault Nat :=
  if 0 ∈ layout.extents then .ok 0
  else do
    let reach ← spanFrom 0 (layout.extents.zip layout.increments)
    Word.add 1 reach

/-- The packed layout of the same extents. It may overflow although the layout
    itself does not. -/
def contiguous (layout : Layout) : Except Fault Layout := packed layout.extents

def ensureRank (layout : Layout) (expected : Nat) : Except LayoutError Unit :=
  if layout.rank ≠ expected then .error (.rankMismatch expected layout.rank) else .ok ()

/-- Checks and adds up coordinates from dimension `dim` on. A coordinate is
    checked before its part of the offset is added. -/
def offsetFrom : (dim total : Nat) → (extents increments coordinates : List Nat) →
    Except (Failure LayoutError) Nat
  | dim, total, extent :: extents, increment :: increments, index :: coordinates =>
    if extent ≤ index then
      .error (.error (.indexOutOfBounds dim index extent))
    else do
      let reach ← Word.mul index increment
      let total ← Word.add total reach
      offsetFrom (dim + 1) total extents increments coordinates
  | _, total, _, _, _ => .ok total

/-- The element that coordinates lead to. Each is checked in turn, before it
    counts towards the sum. -/
def offset (layout : Layout) (coordinates : List Nat) : Except (Failure LayoutError) Nat := do
  layout.ensureRank coordinates.length
  offsetFrom 0 0 layout.extents layout.increments coordinates

end Layout

end StagedArrays
