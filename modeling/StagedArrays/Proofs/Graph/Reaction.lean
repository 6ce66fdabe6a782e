import StagedArrays.Proofs.Graph.Rounds

namespace StagedArrays

/-- The operand on the other side. -/
def Side.other : Side → Side
  | lhs => rhs
  | rhs => lhs

/-- What a node does with a value, as far as that depends on the node alone.
    Whether storage is available shows only when it is done. -/
inductive Reaction where
  | refuse (cause : GraphError)
  | give (value : Variable)
  /-- A first operand is held as the given side. -/
  | hold (node : BinaryNode) (side : Side) (input : Variable)
  /-- The operand of the given side goes together with the one held. -/
  | combine (node : BinaryNode) (side : Side) (held input : Variable)

namespace BinaryNode

/-- What a node does with a value from a source. It is decided by what the node
    waits for and by what it holds. -/
def reaction (node : BinaryNode) (source : Option NodeId) (input : Option Variable) : Reaction :=
  match source, input with
  | some source, some input =>
    match node.sideOf? source, node.held with
    | none, _ => .refuse (.unexpectedInput node.name)
    | some side, none => .hold node side input
    | some side, some (heldSide, held) =>
      if heldSide = side then .refuse (.unexpectedInput node.name) else .combine node side held input
  | _, _ => .refuse (.unexpectedInput node.name)

variable {σ : Type}

/-- Packed storage for a variable, filled by `fill`. If filling fails, the
    storage is given back and the failure passed on. -/
def fresh (like : Variable) (fill : Value → Action σ Unit) : ActivityM σ Variable := do
  let storage ← ActivityM.allocate like.dtype (← like.layout.contiguous)
  filled storage (fill storage.value)

theorem hold_eq (input : Variable) :
    (hold input : ActivityM σ Variable) = fresh input (Elementwise.copyInto · input.value) := rfl

/-- Whether two operands fit together. Their types are compared first, and then
    their extents. -/
def checkOperands (lhs rhs : Variable) : Except (Failure GraphError) Unit := do
  if lhs.dtype ≠ rhs.dtype then throw (.error (.value (.typeMismatch lhs.dtype rhs.dtype)))
  if rhs.layout.rank ≠ 0 ∧ rhs.layout.extents ≠ lhs.layout.extents then
    throw (.error (.value (.sizeMismatch (← lhs.value.size) (← rhs.value.size))))

/-- Storage for the result of two operands, filled with their combination. The
    left operand is copied and then updated by the right one. -/
def combined (op : BinaryOp) (lhs rhs : Variable) : ActivityM σ Variable :=
  fresh lhs fun output => do
    Elementwise.copyInto output lhs.value
    Elementwise.assignBinary op output rhs.value

/-- A combination compares its operands first. If they do not fit, no storage is
    asked for. -/
theorem runFrom_compute (op : BinaryOp) (lhs rhs : Variable) (activity : Activity σ) :
    (compute op lhs rhs).runFrom activity =
      match checkOperands lhs rhs with
      | .error failure => (.error failure, activity)
      | .ok () => (combined op lhs rhs).runFrom activity := by
  unfold compute checkOperands
  by_cases hdtype : lhs.dtype = rhs.dtype
  · simp only [hdtype, ne_eq, not_true, if_false]
    by_cases hextents : rhs.layout.rank ≠ 0 ∧ rhs.layout.extents ≠ lhs.layout.extents
    · simp only [ne_eq] at hextents
      simp only [if_pos hextents, Stateful.runFrom_bind, Stateful.runFrom_liftM]
      cases lhs.value.size with
      | error fault => rfl
      | ok size => cases rhs.value.size <;> rfl
    · simp only [ne_eq] at hextents
      simp only [if_neg hextents]
      rw [combined, fresh, hdtype]
      rfl
  · simp only [ne_eq, hdtype, not_false_iff, if_true]
    rfl

/-- A step after which a held operand gives up its slot. It does so after an
    error as well. -/
def releasing (held : Variable) (action : ActivityM σ Variable) : ActivityM σ Variable := do
  let result ← Stateful.attempt action
  match result with
  | .error (.fault fault) => throw (.fault fault)
  | _ =>
    ActivityM.free held
    Stateful.settle result

/-- The result of a held operand and one of the given side. The side decides
    which of the two is the left one. -/
def combine (op : BinaryOp) (side : Side) (held input : Variable) : ActivityM σ Variable :=
  releasing held
    (match side with
    | .rhs => compute op held input
    | .lhs => compute op input held)

end BinaryNode

namespace Node

def reaction (node : Node) (source : Option NodeId) (input : Option Variable) : Reaction :=
  match node with
  | .literal value => if input.isSome then .refuse (.unexpectedInput "Literal") else .give value
  | .binary node => node.reaction source input

end Node

namespace Node

variable {node : Node} {found : BinaryNode} {source : Option NodeId} {input : Option Variable} {value held operand : Variable}
  {side : Side} {cause : GraphError}

/-- Only a literal gives a value that was not computed. -/
theorem eq_literal_of_give (h : node.reaction source input = .give value) : node = .literal value ∧ input = none := by
  cases node with
  | literal found =>
    cases input with
    | none =>
      cases h
      exact ⟨rfl, rfl⟩
    | some operand => cases h
  | binary node =>
    simp only [reaction, BinaryNode.reaction.eq_def] at h
    split at h
    · split at h
      · cases h
      · cases h
      · split at h <;> cases h
    · cases h

/-- Only a node with two operands holds an input, namely the first one that
    comes in from one of its sides. -/
theorem eq_binary_of_hold (h : node.reaction source input = .hold found side operand) :
    node = .binary found ∧ found.held = none ∧ input = some operand ∧
      ∃ producer, source = some producer ∧ found.sideOf? producer = some side := by
  cases node with
  | literal value => cases input <;> cases h
  | binary node =>
    simp only [reaction, BinaryNode.reaction.eq_def] at h
    split at h
    · next producer incoming =>
      split at h
      · cases h
      · next side' hside hheld =>
        cases h
        exact ⟨rfl, hheld, rfl, producer, rfl, hside⟩
      · split at h <;> cases h
    · cases h

/-- Only such a node combines, and only when the operand for its other side
    comes in. -/
theorem eq_binary_of_combine (h : node.reaction source input = .combine found side held operand) :
    node = .binary found ∧ (∃ heldSide, found.held = some (heldSide, held) ∧ heldSide ≠ side) ∧ input = some operand ∧
      ∃ producer, source = some producer ∧ found.sideOf? producer = some side := by
  cases node with
  | literal value => cases input <;> cases h
  | binary node =>
    simp only [reaction, BinaryNode.reaction.eq_def] at h
    split at h
    · next producer incoming =>
      split at h
      · cases h
      · cases h
      · next side' heldSide found' hside hheld =>
        split at h
        · cases h
        · next hne =>
          cases h
          exact ⟨rfl, ⟨heldSide, hheld, hne⟩, rfl, producer, rfl, hside⟩
    · cases h

end Node

namespace NodeM

variable {ν σ α : Type}

@[simp]
theorem runFrom_node (state : NodeState ν σ) : (node : NodeM ν σ ν).runFrom state = (.ok state.node, state) := rfl

@[simp]
theorem runFrom_setNode (next : ν) (state : NodeState ν σ) :
    (setNode next : NodeM ν σ Unit).runFrom state = (.ok (), ⟨next, state.activity⟩) := rfl

@[simp]
theorem runFrom_onActivity (action : ActivityM σ α) (state : NodeState ν σ) :
    (onActivity action).runFrom state =
      ((action.runFrom state.activity).1, ⟨state.node, (action.runFrom state.activity).2⟩) := rfl

end NodeM

namespace BinaryNode

variable {σ : Type} (node : BinaryNode) (source : Option NodeId) (input : Option Variable) (activity : Activity σ)

/-- The last part of a step gives back what was held, whatever came of the
    combination. A fault is the exception: it ends everything at once. -/
theorem runFrom_releasing (action : ActivityM σ Variable) (held : Variable) :
    (do
      let result ← Stateful.attempt (NodeM.onActivity action)
      match result with
      | .error (.fault fault) => throw (.fault fault)
      | _ =>
        NodeM.onActivity (ActivityM.free held)
        return some (← Stateful.settle result) : NodeM BinaryNode σ (Option Variable)).runFrom ⟨node, activity⟩ =
      (((releasing held action).runFrom activity).1.map some, ⟨node, ((releasing held action).runFrom activity).2⟩) := by
  rw [releasing, Stateful.runFrom_bind, Stateful.runFrom_bind, Stateful.runFrom_attempt, Stateful.runFrom_attempt,
    NodeM.runFrom_onActivity]
  rcases action.runFrom activity with ⟨(cause | fault) | result, after⟩
  · dsimp only
    rw [Stateful.runFrom_bind, Stateful.runFrom_bind, NodeM.runFrom_onActivity]
    rcases (ActivityM.free held).runFrom after with ⟨failure | ⟨⟩, after⟩ <;> rfl
  · rfl
  · dsimp only
    rw [Stateful.runFrom_bind, Stateful.runFrom_bind, NodeM.runFrom_onActivity]
    rcases (ActivityM.free held).runFrom after with ⟨failure | ⟨⟩, after⟩ <;> rfl

/-- A node reacts without looking at what the graph shares. Only then it asks
    for storage. -/
theorem runFrom_receive :
    (receive source input).runFrom (⟨node, activity⟩ : NodeState BinaryNode σ) =
      match node.reaction source input with
      | .refuse cause => (.error (.error cause), ⟨node, activity⟩)
      | .give value => (.ok (some value), ⟨node, activity⟩)
      | .hold found side input =>
        match (hold input).runFrom activity with
        | (.ok held, after) => (.ok none, ⟨{ found with held := some (side, held) }, after⟩)
        | (.error failure, after) => (.error failure, ⟨node, after⟩)
      | .combine node side held input =>
        (((combine node.op side held input).runFrom activity).1.map some,
          ⟨{ node with held := none }, ((combine node.op side held input).runFrom activity).2⟩) := by
  rw [receive, Stateful.runFrom_bind, NodeM.runFrom_node, reaction.eq_def]
  cases source with
  | none => rfl
  | some source =>
    cases input with
    | none => rfl
    | some input =>
      dsimp only
      cases node.sideOf? source with
      | none => rfl
      | some side =>
        rcases node.held with - | ⟨heldSide, held⟩
        · dsimp only
          rw [Stateful.runFrom_bind, NodeM.runFrom_onActivity]
          rcases (hold input).runFrom activity with ⟨failure | held, after⟩
          · rfl
          · rfl
        · dsimp only
          by_cases hside : heldSide = side
          · rw [if_pos hside, if_pos hside]
            rfl
          · rw [if_neg hside, if_neg hside]
            rw [Stateful.runFrom_bind, NodeM.runFrom_setNode]
            cases side with
            | lhs => exact runFrom_releasing _ activity (compute node.op input held) held
            | rhs => exact runFrom_releasing _ activity (compute node.op held input) held

end BinaryNode

namespace Graph

variable {graph : Graph Node} {id : NodeId} {entry : GraphEntry Node} {node : Node}

/-- The graph with another node under a name. -/
def setNode (graph : Graph Node) (id : NodeId) (node : Node) : Graph Node :=
  graph.modifyEntry id fun entry => { entry with node }

/-- To put a node under a name changes this entry only. Its edges and retention
    stay. -/
theorem getElem?_setNode (graph : Graph Node) (id : NodeId) (node : Node) (index : Nat) :
    (graph.setNode id node).entries[index]? =
      if id.index = index then graph.entries[index]?.map ({ · with node }) else graph.entries[index]? := by
  simp only [setNode, modifyEntry, Array.getElem?_modify]

/-- Putting a node where it already is changes nothing. -/
theorem setNode_self (h : graph.entries[id.index]? = some entry) : graph.setNode id entry.node = graph := by
  have hentries : (graph.setNode id entry.node).entries = graph.entries := by
    refine Array.ext_getElem? fun index => ?_
    rw [getElem?_setNode]
    split
    · next heq => rw [← heq, h, Option.map_some]
    · rfl
  obtain ⟨entries, outputs⟩ := graph
  exact congrArg (Graph.mk · outputs) hentries

@[simp]
theorem size_setNode : (graph.setNode id node).size = graph.size := by simp [size, setNode, modifyEntry]

/-- The node under a name has no part in the edges. So these stay as they
    are. -/
@[simp]
theorem wiring_setNode : (graph.setNode id node).wiring = graph.wiring := by
  funext other
  rw [wiring, wiring, getElem?_setNode]
  split
  · cases graph.entries[other.index]? <;> rfl
  · rfl

end Graph

namespace GraphM

variable {σ : Type} {state : GraphState Node σ} {id : NodeId} {entry : GraphEntry Node} {source : Option NodeId}
  {input : Option Variable}

/-- An action of a node runs on the node and on the storage, and the node it
    leaves takes the place of the former one. -/
theorem runFrom_onNode {ν α : Type} {state : GraphState ν σ} {entry : GraphEntry ν} (action : NodeM ν σ α)
    (hentry : state.graph.entries[id.index]? = some entry) :
    (onNode id action).runFrom state =
      ((action.runFrom ⟨entry.node, state.activity⟩).1,
        ⟨state.graph.modifyEntry id fun found => { found with node := (action.runFrom ⟨entry.node, state.activity⟩).2.node },
          (action.runFrom ⟨entry.node, state.activity⟩).2.activity⟩) := by
  rw [onNode, Stateful.runFrom_bind, Stateful.runFrom_get]
  simp only [hentry]
  rfl

/-- To work on a node that is not there is an error. Nothing changes. -/
theorem runFrom_onNode_of_none {ν α : Type} {state : GraphState ν σ} (action : NodeM ν σ α)
    (hentry : state.graph.entries[id.index]? = none) :
    (onNode id action).runFrom state = (.error (.error (.unknownNode id)), state) := by
  rw [onNode, Stateful.runFrom_bind, Stateful.runFrom_get]
  simp only [hentry, Stateful.runFrom_fail]

/-- What a node of a graph does with a value. Every proof about a step of a node
    begins with these cases. -/
theorem runFrom_process (hentry : state.graph.entries[id.index]? = some entry) :
    (onNode id (GraphNode.process source input)).runFrom state =
      match entry.node.reaction source input with
      | .refuse cause => (.error (.error cause), state)
      | .give value => (.ok (some value), state)
      | .hold node side operand =>
        match (BinaryNode.hold operand).runFrom state.activity with
        | (.ok held, activity) =>
          (.ok none, ⟨state.graph.setNode id (.binary { node with held := some (side, held) }), activity⟩)
        | (.error failure, activity) => (.error failure, ⟨state.graph, activity⟩)
      | .combine node side held operand =>
        (((BinaryNode.combine node.op side held operand).runFrom state.activity).1.map some,
          ⟨state.graph.setNode id (.binary { node with held := none }),
            ((BinaryNode.combine node.op side held operand).runFrom state.activity).2⟩) := by
  rw [runFrom_onNode _ hentry]
  have hself := Graph.setNode_self hentry
  obtain ⟨graph, activity⟩ := state
  cases hnode : entry.node with
  | literal value =>
    rw [hnode] at hself
    simp only [GraphNode.process, Stateful.runFrom_bind, NodeM.runFrom_node, Node.reaction]
    cases input with
    | none => exact congrArg (fun graph => (_, GraphState.mk graph activity)) hself
    | some input => exact congrArg (fun graph => (_, GraphState.mk graph activity)) hself
  | binary node =>
    rw [hnode] at hself
    simp only [GraphNode.process, Stateful.runFrom_bind, NodeM.runFrom_node, Node.reaction, Node.onBinary,
      Stateful.runFrom_focus, BinaryNode.runFrom_receive]
    cases node.reaction source input with
    | refuse cause => exact congrArg (fun graph => (_, GraphState.mk graph activity)) hself
    | give value => exact congrArg (fun graph => (_, GraphState.mk graph activity)) hself
    | hold found side operand =>
      dsimp only
      rcases (BinaryNode.hold operand).runFrom activity with ⟨failure | held, after⟩
      · exact congrArg (fun graph => (_, GraphState.mk graph after)) hself
      · rfl
    | combine found side held operand => rfl

theorem runFrom_settle_output (id : NodeId) (result : Variable) (state : GraphState Node σ) :
    (settleResult id .output result).runFrom state =
      (.ok (), (⟨state.graph.keep id result, state.activity⟩ : GraphState Node σ).noted (.retained id result)) := rfl

/-- A result that is not kept gives up its slot. The observer is told if this
    succeeds. -/
theorem runFrom_settle_free (result : Variable) (hentry : state.graph.entries[id.index]? = some entry) :
    (settleResult id .free result).runFrom state =
      match (ActivityM.free result).runFrom state.activity with
      | (.ok _, activity) => (.ok (), (⟨state.graph, activity⟩ : GraphState Node σ).noted (.released id result))
      | (.error failure, activity) => (.error failure, ⟨state.graph, activity⟩) := by
  have hnode : (onNode id (GraphNode.complete result)).runFrom state =
      (((ActivityM.free result).runFrom state.activity).1, ⟨state.graph, ((ActivityM.free result).runFrom state.activity).2⟩) := by
    rw [runFrom_onNode _ hentry]
    exact congrArg (fun graph => (_, GraphState.mk graph _)) (Graph.setNode_self hentry)
  rw [settleResult, Stateful.runFrom_bind, hnode]
  rcases (ActivityM.free result).runFrom state.activity with ⟨failure | ⟨⟩, activity⟩ <;> rfl

end GraphM

end StagedArrays
