import StagedArrays.Graph.Basic

namespace StagedArrays

/-- Which operand of a binary node a value is. It follows from the producer the
    value comes from. -/
inductive Side where
  | lhs
  | rhs
  deriving DecidableEq

/-- `lhs op rhs` of two results. The operand that comes first is copied into a
    slot of the node, so that its producer can give up its own. -/
structure BinaryNode where
  op : BinaryOp
  lhs : NodeId
  rhs : NodeId
  held : Option (Side × Variable) := none

/-- The nodes of the library: a given variable, or an operation on two
    results. -/
inductive Node where
  | literal (value : Variable)
  | binary (node : BinaryNode)

namespace BinaryNode

def name (node : BinaryNode) : String := s!"Binary {node.op.name}"

/-- Which operand a producer stands for. Where it is both, the left one comes
    first. -/
def sideOf? (node : BinaryNode) (source : NodeId) : Option Side :=
  let leftPending := node.held.any fun (side, _) => side = .lhs
  if source = node.lhs ∧ ¬(source = node.rhs ∧ leftPending) then some .lhs
  else if source = node.rhs then some .rhs
  else none

variable {σ : Type}

/-- Fills fresh storage by `fill`, and gives it back if that fails. A fault is
    not cleaned up after. -/
def filled (storage : Variable) (fill : Action σ Unit) : ActivityM σ Variable := do
  let outcome ← Stateful.attempt (ActivityM.onWorld fill)
  match outcome with
  | .ok () => return storage
  | .error (.fault fault) => throw (.fault fault)
  | .error (.error cause) =>
    ActivityM.free storage
    .fail cause

/-- A packed copy of an operand in a slot of its own. The operand itself may be
    given up by its producer afterwards. -/
def hold (input : Variable) : ActivityM σ Variable := do
  let storage ← ActivityM.allocate input.dtype (← input.layout.contiguous)
  filled storage (Elementwise.copyInto storage.value input.value)

/-- The result of two operands in a slot of its own, packed as the left one.
    Operands are compared before there is any storage. -/
def compute (op : BinaryOp) (lhs rhs : Variable) : ActivityM σ Variable := do
  if lhs.dtype ≠ rhs.dtype then .fail (.value (.typeMismatch lhs.dtype rhs.dtype))
  if rhs.layout.rank ≠ 0 ∧ rhs.layout.extents ≠ lhs.layout.extents then
    .fail (.value (.sizeMismatch (← lhs.value.size) (← rhs.value.size)))
  let output ← ActivityM.allocate lhs.dtype (← lhs.layout.contiguous)
  filled output do
    Elementwise.copyInto output.value lhs.value
    Elementwise.assignBinary op output.value rhs.value

/-- Takes one operand in. The first is held; with the other the node computes,
    and gives up the slot of the first whether or not that succeeds. -/
def receive (source : Option NodeId) (input : Option Variable) :
    NodeM BinaryNode σ (Option Variable) := do
  let node ← NodeM.node
  let refused : GraphError := .unexpectedInput node.name
  match source, input with
  | some source, some input =>
    match node.sideOf? source, node.held with
    | none, _ => .fail refused
    | some side, none =>
      let held ← NodeM.onActivity (hold input)
      NodeM.setNode { node with held := some (side, held) }
      return none
    | some side, some (heldSide, held) =>
      if heldSide = side then .fail refused
      else do
        NodeM.setNode { node with held := none }
        let result ← Stateful.attempt (NodeM.onActivity
          (match side with
          | .rhs => compute node.op held input
          | .lhs => compute node.op input held))
        match result with
        | .error (.fault fault) => throw (.fault fault)
        | _ =>
          NodeM.onActivity (ActivityM.free held)
          return some (← Stateful.settle result)
  | _, _ => .fail refused

/-- Gives back a held operand. The node awaits both operands then. -/
def clear : NodeM BinaryNode σ Unit := do
  let node ← NodeM.node
  match node.held with
  | none => pure ()
  | some (_, held) =>
    NodeM.setNode { node with held := none }
    NodeM.onActivity (ActivityM.free held)

end BinaryNode

namespace Node

variable {σ : Type}

/-- A literal of a variable that has to be there. One without ends in a fault,
    not in an error. -/
def literalOf? : Option Variable → Except Fault Node
  | some value => .ok (.literal value)
  | none => .error .literalWithoutValue

/-- Runs a step of a binary node; any other node is left alone. The node it
    leaves is a binary node again. -/
def onBinary {α : Type} (node : BinaryNode) (action : NodeM BinaryNode σ α) : NodeM Node σ α :=
  .focus (fun ⟨_, activity⟩ => (⟨node, activity⟩, fun done =>
    ⟨.binary done.node, done.activity⟩)) action

instance : GraphNode Node where
  name
    | .literal _ => "Literal"
    | .binary node => node.name
  process source input := do
    match ← NodeM.node with
    | .literal value =>
      if input.isSome then .fail (.unexpectedInput "Literal") else return some value
    | .binary node => onBinary node (BinaryNode.receive source input)
  reset := do
    match ← NodeM.node with
    | .literal _ => pure ()
    | .binary node => onBinary node BinaryNode.clear

end Node

end StagedArrays
