import StagedArrays.Graph.Activity

namespace StagedArrays

/-- A node at work, with what all nodes share. A node sees no other node. -/
structure NodeState (ν σ : Type) where
  node : ν
  activity : Activity σ

/-- A step of a node. What it changes in the node stays when it fails, and so
    does what it does to storage. -/
abbrev NodeM (ν σ α : Type) := Stateful GraphError (NodeState ν σ) α

namespace NodeM

variable {ν σ α : Type}

def onActivity (action : ActivityM σ α) : NodeM ν σ α :=
  .focus (fun ⟨node, activity⟩ => (activity, (⟨node, ·⟩))) action

def node : NodeM ν σ ν := return (← get).node

def setNode (node : ν) : NodeM ν σ Unit := modify fun state => { state with node }

end NodeM

/-- What the nodes of a graph do. The graph itself knows nothing else of
    them. -/
class GraphNode (ν : Type) where
  name : ν → String
  /-- Handles one incoming value; a node without producers is asked once without
      any. A variable that is returned goes to the dependents. -/
  process {σ : Type} (source : Option NodeId) (input : Option Variable) :
    NodeM ν σ (Option Variable)
  /-- Called with a result that is not kept, after the dependents have seen
      it. -/
  complete {σ : Type} (result : Variable) : NodeM ν σ Unit := .onActivity (.free result)
  /-- Clears what a run has left behind. -/
  reset {σ : Type} : NodeM ν σ Unit := pure ()

/-- What happens to the result of a node after the dependents have seen it: the
    node is told, or the graph keeps it. -/
inductive Retention where
  | free
  | output
  deriving DecidableEq

/-- A node with the nodes that take its result, in the order they were
    recorded. -/
structure GraphEntry (ν : Type) where
  node : ν
  dependents : List NodeId := []
  retention : Retention := .free

/-- Nodes in the order they were added, and the results kept so far, the last
    one first. -/
structure Graph (ν : Type) where
  entries : Array (GraphEntry ν) := #[]
  outputs : List (NodeId × Variable) := []

namespace Graph

variable {ν : Type}

instance : Inhabited (Graph ν) := ⟨{}⟩

def size (graph : Graph ν) : Nat := graph.entries.size

/-- Adds a node without dependents. Its number is how many there were before. -/
def push (graph : Graph ν) (node : ν) : NodeId × Graph ν :=
  (⟨graph.size⟩, { graph with entries := graph.entries.push { node } })

def check (graph : Graph ν) (id : NodeId) : Except GraphError Unit :=
  if id.index < graph.size then .ok () else .error (.unknownNode id)

/-- Changes an entry. Unknown numbers change nothing. -/
def modifyEntry (graph : Graph ν) (id : NodeId) (f : GraphEntry ν → GraphEntry ν) : Graph ν :=
  { graph with entries := graph.entries.modify id.index f }

/-- Records that one node takes the result of another. A node recorded twice is
    notified twice. -/
def addDependent (graph : Graph ν) (producer consumer : NodeId) : Except GraphError (Graph ν) := do
  graph.check producer
  graph.check consumer
  return graph.modifyEntry producer fun entry =>
    { entry with dependents := entry.dependents ++ [consumer] }

/-- Says what becomes of the result of a node. It is an error if there is no
    such node. -/
def setRetention (graph : Graph ν) (id : NodeId) (retention : Retention) :
    Except GraphError (Graph ν) := do
  graph.check id
  return graph.modifyEntry id fun entry => { entry with retention }

/-- The nodes that take the result of a node; none for an unknown one. -/
def dependents (graph : Graph ν) (id : NodeId) : List NodeId :=
  match graph.entries[id.index]? with
  | some entry => entry.dependents
  | none => []

def nodeName? [GraphNode ν] (graph : Graph ν) (id : NodeId) : Option String :=
  graph.entries[id.index]?.map fun entry => GraphNode.name entry.node

/-- Keeps a result; an earlier one of the same node is replaced. The storage of
    the earlier one is not given back. -/
def keep (graph : Graph ν) (id : NodeId) (result : Variable) : Graph ν :=
  { graph with outputs := (id, result) :: graph.outputs.filter fun (other, _) => other ≠ id }

/-- The nodes that are nobody's dependent, in the order they were added. A run
    begins with them. -/
def leaves (graph : Graph ν) : List NodeId :=
  let taken := graph.entries.toList.flatMap GraphEntry.dependents
  (List.range graph.size).map NodeId.mk |>.filter fun id => id ∉ taken

end Graph

/-- A graph at work: its nodes, with what they hold, and the storage and journal
    that they share. -/
structure GraphState (ν σ : Type) where
  graph : Graph ν
  activity : Activity σ

/-- A step of a graph. What happened before a failure is not undone. -/
abbrev GraphM (ν σ α : Type) := Stateful GraphError (GraphState ν σ) α

namespace GraphM

variable {ν σ : Type}

def onActivity {α : Type} (action : ActivityM σ α) : GraphM ν σ α :=
  .focus (fun ⟨graph, activity⟩ => (activity, (⟨graph, ·⟩))) action

def setGraph (graph : Graph ν) : GraphM ν σ Unit := modify fun state => { state with graph }

/-- Runs a step of the node of a given name, and puts the node it leaves in the
    place of the former one. -/
def onNode {α : Type} (id : NodeId) (action : NodeM ν σ α) : GraphM ν σ α := do
  let state ← get
  match state.graph.entries[id.index]? with
  | none => .fail (.unknownNode id)
  | some entry =>
    .focus (fun ⟨graph, activity⟩ => (⟨entry.node, activity⟩, fun done =>
      ⟨graph.modifyEntry id fun entry => { entry with node := done.node }, done.activity⟩)) action

/-- Settles a result that the dependents have seen: it is kept, or the node is
    told. -/
def settleResult [GraphNode ν] (id : NodeId) (retention : Retention) (result : Variable) :
    GraphM ν σ Unit := do
  match retention with
  | .output =>
    onActivity (.note (.retained id result))
    setGraph ((← get).graph.keep id result)
  | .free =>
    onNode id (GraphNode.complete result)
    onActivity (.note (.released id result))

/-- Runs `notify` for each node in turn, up to the first failure. Those after it
    are not notified. -/
def notifyAll (notify : NodeId → GraphM ν σ Unit) : List NodeId → GraphM ν σ Unit
  | [] => pure ()
  | id :: rest => do
    notify id
    notifyAll notify rest

/-- Lets a node handle a value. A result goes to each dependent, depth first,
    and is settled afterwards even if a dependent failed. At most `depth`
    notifications are inside one another. -/
def processWithin [GraphNode ν] : (depth : Nat) → (id : NodeId) → (source : Option NodeId) →
    (input : Option Variable) → GraphM ν σ Unit
  | 0, _, _, _ => throw (.fault .notificationsTooDeep)
  | depth + 1, id, source, input => do
    match ← onNode id (GraphNode.process source input) with
    | none => return
    | some result =>
      onActivity (.note (.processed id result))
      let graph := (← get).graph
      let notified ← Stateful.attempt
        (notifyAll (fun dependent => processWithin depth dependent (some id) (some result))
          (graph.dependents id))
      match notified with
      | .error (.fault fault) => throw (.fault fault)
      | _ =>
        match graph.entries[id.index]? with
        | some entry => settleResult id entry.retention result
        | none => pure ()
        Stateful.settle notified

/-- How deep notifications can go. Each turn around a cycle takes another
    slot. -/
def depthLimit (state : GraphState ν σ) : Nat :=
  (state.graph.size + 1) * (state.activity.storage.allocator.maxSlots + 2)

/-- Lets a node handle a value, notifications nested as deep as they can need to
    be. -/
def process [GraphNode ν] (id : NodeId) (source : Option NodeId) (input : Option Variable) :
    GraphM ν σ Unit := do
  processWithin (depthLimit (← get)) id source input

/-- Processes every leaf in turn and hands over the results that were kept.
    After a failure they stay with the graph. -/
def run [GraphNode ν] : GraphM ν σ (List (NodeId × Variable)) := do
  notifyAll (fun leaf => process leaf none none) (← get).graph.leaves
  let graph := (← get).graph
  setGraph { graph with outputs := [] }
  return graph.outputs

/-- Gives back the storage that an interrupted run kept, in the order of the
    nodes. -/
def freeOutputs : List (NodeId × Variable) → GraphM ν σ Unit
  | [] => pure ()
  | (_, output) :: rest => do
    onActivity (.free output)
    freeOutputs rest

/-- Gives back what an interrupted run left behind, so that the graph can run
    again. -/
def reset [GraphNode ν] : GraphM ν σ Unit := do
  let graph := (← get).graph
  setGraph { graph with outputs := [] }
  freeOutputs (graph.outputs.mergeSort fun a b => a.1.index ≤ b.1.index)
  notifyAll (fun id => onNode id GraphNode.reset) ((List.range graph.size).map NodeId.mk)

end GraphM

end StagedArrays
