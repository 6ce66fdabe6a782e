import StagedArrays.Graph.Node

namespace StagedArrays

/-- The nodes of the library, and nodes that work on a single flow of values. -/
inductive Stage where
  | node (inner : Node)
  /-- Multiplies its input by a factor into storage of its own. -/
  | scale (factor : Numeric)
  /-- Has no value to give. -/
  | fail
  /-- Gives its input on as it is. -/
  | pass
  /-- Takes its input and gives nothing on. -/
  | sink

namespace Stage

variable {σ : Type}

/-- Runs a step of a library node. The stage it leaves is such a node again. -/
def onNode {α : Type} (inner : Node) (action : NodeM Node σ α) : NodeM Stage σ α :=
  .focus (fun ⟨_, activity⟩ => (⟨inner, activity⟩, fun done =>
    ⟨.node done.node, done.activity⟩)) action

/-- The product of a variable and a factor. The storage is not given back if
    that fails. -/
def scaled (factor : Numeric) (input : Variable) : ActivityM σ Variable := do
  if input.dtype ≠ factor.dtype then .fail (.value (.typeMismatch factor.dtype input.dtype))
  let output ← ActivityM.allocate input.dtype (← input.layout.contiguous)
  ActivityM.onWorld do
    Elementwise.copyInto output.value input.value
    Elementwise.assignBinary .mul output.value (.constant factor)
  return output

instance : GraphNode Stage where
  name
    | .node inner => GraphNode.name inner
    | .scale _ => "Scale"
    | .fail => "Fail"
    | .pass => "Pass"
    | .sink => "Sink"
  process source input := do
    match ← NodeM.node with
    | .node inner => onNode inner (GraphNode.process source input)
    | .scale factor =>
      match input with
      | some input => return some (← NodeM.onActivity (scaled factor input))
      | none => .fail (.unexpectedInput "Scale")
    | .fail => .fail (.value (.invalidArgument (.host "input unavailable")))
    | .pass => return input
    | .sink => return none
  complete result := do
    match ← NodeM.node with
    | .node inner => onNode inner (GraphNode.complete result)
    | _ => .onActivity (.free result)
  reset := do
    match ← NodeM.node with
    | .node inner => onNode inner GraphNode.reset
    | _ => pure ()

end Stage

end StagedArrays
