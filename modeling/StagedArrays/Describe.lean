import StagedArrays.Code.Document
import StagedArrays.Graph.Activity
import StagedArrays.Numeric.Written

namespace StagedArrays

namespace Document

/-- The texts of elements, in the order of the layout they are read through. -/
def ofElements (elements : List Numeric) : Document := .ofList (fun x => .text x.written) elements

def ofSlot (slot : Option SlotId) : Document := .ofOption (fun id => .ofNat id.index) slot

end Document

namespace Value

/-- What is to be told of the data: an immediate, the place and elements in a
    host buffer, the place in an emitted buffer, or a register. -/
def describeData (heap : Heap) (value : Value) : Outcome (List (String × Document)) :=
  match value.data with
  | .constant x => return [("constant", .text x.written)]
  | .host ref offset => do
    let elements ← value.toList heap value.dtype
    let place := .record [("offset", .ofNat offset), ("len", .ofNat (heap.get ref).length)]
    return [("host", place), ("elements", .ofElements elements)]
  | .buffer id offset => return [("buffer", .ofNat id.index), ("offset", offset.toDocument)]
  | .register id => return [("register", .ofNat id.index)]

/-- A value in full: its type and layout, where its data is, and the elements if
    they can be listed. -/
def describe (heap : Heap) (value : Value) : Outcome Document := do
  return .record ([("dtype", .text value.dtype.tag),
    ("extents", .ofList .ofNat value.layout.extents),
    ("increments", .ofList .ofNat value.layout.increments)] ++ (← value.describeData heap))

end Value

namespace Variable

/-- A variable in full, with the slot it occupies if it has one. -/
def describe (heap : Heap) (v : Variable) : Outcome Document := do
  return .record [("slot", .ofSlot v.slot), ("value", ← v.value.describe heap)]

end Variable

namespace Event

/-- A word for the event, what it concerns, and how it went. -/
def describe : Event → Document
  | allocated dtype extents outcome =>
    .list [.text "alloc", .text dtype.tag, .ofList .ofNat extents,
      match outcome with
      | .ok slot => .ofSlot slot
      | .error cause => .text cause.kind]
  | freed slot outcome =>
    .list [.text "free", .ofSlot slot,
      match outcome with
      | .ok () => .text "ok"
      | .error cause => .text cause.kind]
  | processed node result => .list [.text "processed", .ofNat node.index, .ofSlot result.slot]
  | released node result => .list [.text "released", .ofNat node.index, .ofSlot result.slot]
  | retained node result => .list [.text "retained", .ofNat node.index, .ofSlot result.slot]

end Event

end StagedArrays
