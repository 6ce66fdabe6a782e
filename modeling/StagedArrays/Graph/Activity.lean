import StagedArrays.Algebra.Elementwise
import StagedArrays.Allocator

namespace StagedArrays

/-- Names a node of a graph. Nodes are numbered as they are added, and none is
    taken away. -/
structure NodeId where
  index : Nat
  deriving DecidableEq

namespace NodeId

def text (id : NodeId) : String := ArgumentError.handle "DataFlowNodeId" id.index

end NodeId

/-- Why a graph cannot go on: a node is handed something it does not await, a
    node is unknown, or storage or an operation fails. -/
inductive GraphError where
  | unexpectedInput (node : String)
  | unknownNode (node : NodeId)
  | value (cause : ValueError)
  | allocator (cause : AllocatorError)
  deriving DecidableEq

namespace GraphError

/-- What is told of a failed step of a graph. Failures of values and of the
    allocator are told in their own words. -/
def message : GraphError → String
  | unexpectedInput node => s!"Node {node} received an unexpected input"
  | unknownNode node => s!"Unknown node {node.text}"
  | value cause => cause.message
  | allocator cause => cause.message

/-- The kind of an error; that of a value or an allocator comes after a
    slash. -/
def kind : GraphError → String
  | unexpectedInput _ => "UnexpectedInput"
  | unknownNode _ => "UnknownNode"
  | value cause => "ValueError/" ++ cause.kind
  | allocator cause => "AllocatorError/" ++ cause.kind

end GraphError

/-- What can be observed of a graph at work, in order: what happens to storage,
    and what becomes of results. -/
inductive Event where
  | allocated (dtype : DType) (extents : List Nat) (outcome : Except AllocatorError (Option SlotId))
  | freed (slot : Option SlotId) (outcome : Except AllocatorError Unit)
  | processed (node : NodeId) (result : Variable)
  | released (node : NodeId) (result : Variable)
  | retained (node : NodeId) (result : Variable)

/-- What the nodes of a graph share while they work: storage, and a journal of
    events. -/
structure Activity (σ : Type) where
  storage : Storage σ
  journal : Array Event := #[]

/-- A step of a graph at work. Its journal tells also of steps that failed. -/
abbrev ActivityM (σ α : Type) := Stateful GraphError (Activity σ) α

namespace ActivityM

variable {σ : Type}

/-- Enters an event into the journal. Events are never taken out. -/
def note (event : Event) : ActivityM σ Unit :=
  modify fun activity => { activity with journal := activity.journal.push event }

def onStorage {α : Type} (action : StorageM σ α) : ActivityM σ α :=
  .focus (fun ⟨storage, journal⟩ => (storage, (⟨·, journal⟩))) (action.mapCause .allocator)

def onWorld {α : Type} (action : Action σ α) : ActivityM σ α :=
  .focus (fun ⟨⟨allocator, world⟩, journal⟩ => (world, (⟨⟨allocator, ·⟩, journal⟩)))
    (action.mapCause .value)

/-- Runs an allocator step and enters its outcome into the journal. A fault is
    not entered, since nothing goes on after it. -/
def noted {α : Type} (event : Except AllocatorError α → Event) (action : StorageM σ α) :
    ActivityM σ α := do
  let outcome ← onStorage (Stateful.attempt action)
  match outcome with
  | .ok value =>
    note (event (.ok value))
    return value
  | .error (.error cause) =>
    note (event (.error cause))
    .fail (.allocator cause)
  | .error (.fault fault) => throw (.fault fault)

/-- Takes storage from the allocator, and says so in the journal, whether it
    succeeds or not. -/
def allocate (dtype : DType) (layout : Layout) : ActivityM σ Variable :=
  noted (fun outcome => .allocated dtype layout.extents (outcome.map Variable.slot))
    (StorageM.allocate dtype layout)

/-- Gives storage back to the allocator, and says so in the journal, whether it
    succeeds or not. -/
def free (v : Variable) : ActivityM σ Unit := noted (.freed v.slot) (StorageM.free v)

end ActivityM

end StagedArrays
