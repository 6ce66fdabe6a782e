import StagedArrays.Layout.Basic

namespace StagedArrays

/-- Steps through the coordinates of a shape in row-major order, the last
    dimension fastest. Once it has run out it stays so. -/
structure Odometer where
  extents : List Nat
  next : Option (List Nat)
  deriving DecidableEq

namespace Odometer

/-- Stands at the first coordinates, or nowhere if a dimension is empty. Without
    dimensions the first coordinates are the only ones. -/
def start (extents : List Nat) : Odometer :=
  ⟨extents, if 0 ∈ extents then none else some (extents.map fun _ => 0)⟩

/-- The coordinates that follow. A dimension that is full starts again at zero
    and carries into the one before it; nothing follows when the first is
    full. -/
def successor : (extents current : List Nat) → Option (List Nat)
  | extent :: extents, index :: current =>
    match successor extents current with
    | some following => some (index :: following)
    | none => if index + 1 < extent then some ((index + 1) :: current.map fun _ => 0) else none
  | _, _ => none

/-- The coordinates the odometer stands at, and the odometer moved on by one.
    Past the last there are none. -/
def step (odometer : Odometer) : Option (List Nat × Odometer) :=
  odometer.next.map fun current => (current, ⟨odometer.extents, successor odometer.extents current⟩)

/-- The coordinates of the next `count` steps, or as many as there are. -/
def take : Nat → Odometer → List (List Nat)
  | 0, _ => []
  | count + 1, odometer =>
    match odometer.step with
    | some (current, rest) => current :: take count rest
    | none => []

/-- Runs `body` on at most `count` coordinates, stopping at the first
    failure. -/
def visit {ε σ : Type} (body : List Nat → Stateful ε σ Unit) : Nat → Odometer → Stateful ε σ Unit
  | 0, _ => pure ()
  | count + 1, odometer =>
    match odometer.step with
    | some (current, rest) => do
      body current
      visit body count rest
    | none => pure ()

end Odometer

namespace Layout

/-- The product of the extents as a mathematical integer. It bounds the steps of
    the odometer, and is never computed as a word. -/
def coordinateCount (layout : Layout) : Nat := layout.extents.foldl (· * ·) 1

/-- The first `count` coordinates, in row-major order, or all if there are
    fewer. -/
def firstCoordinates (layout : Layout) (count : Nat) : List (List Nat) :=
  (Odometer.start layout.extents).take count

/-- Every coordinate of the layout in row-major order: the last dimension counts
    fastest. -/
def coordinates (layout : Layout) : List (List Nat) :=
  layout.firstCoordinates layout.coordinateCount

/-- Runs `body` on every coordinate in row-major order, stopping at the first
    failure. -/
def forCoordinates {ε σ : Type} (layout : Layout) (body : List Nat → Stateful ε σ Unit) :
    Stateful ε σ Unit :=
  (Odometer.start layout.extents).visit body layout.coordinateCount

end Layout

end StagedArrays
