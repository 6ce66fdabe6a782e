import StagedArrays.Proofs.Graph.Lending

namespace StagedArrays

open Stateful (Ends Moves)

/-- The slots of some variables. A variable without a slot adds none. -/
def Variable.slotsOf (vs : List Variable) : List Nat := vs.flatMap Variable.slots

namespace Node

/-- The operand that a node holds. A literal holds none, for its variable is its
    own. -/
def held? : Node → Option Variable
  | literal _ => none
  | binary node => node.held.map Prod.snd

/-- The variable of a literal. Other nodes have none that is fixed. -/
def fixed? : Node → Option Variable
  | literal value => some value
  | binary _ => none

theorem fixed?_eq_some_iff {node : Node} {v : Variable} : node.fixed? = some v ↔ node = .literal v := by
  cases node <;> simp [fixed?]

end Node

namespace Graph

variable {graph : Graph Node} {id : NodeId} {entry : GraphEntry Node} {node : Node} {v : Variable} {fired : List NodeId}

/-- The operands that the nodes hold, in the order of the nodes. -/
def held (graph : Graph Node) : List Variable := graph.entries.toList.filterMap fun entry => entry.node.held?

/-- The results kept so far, the last one first. -/
def kept (graph : Graph Node) : List Variable := graph.outputs.map Prod.snd

/-- The values of the literals are not from the slots of an allocator. Giving
    them up changes no slot. -/
def Unmanaged (graph : Graph Node) : Prop :=
  ∀ (index : Nat) entry value, graph.entries[index]? = some entry → entry.node = .literal value → value.slot = none

/-- The variables of the literals that have yet to give theirs. Their slots have
    to be in use until then. -/
def waiting (graph : Graph Node) (fired : List NodeId) : List Variable :=
  (List.range graph.size).filterMap fun index =>
    if ⟨index⟩ ∈ fired then none else graph.entries[index]?.bind (·.node.fixed?)

/-- The waiting variables are those of the literals that have not fired. -/
theorem mem_waiting : v ∈ graph.waiting fired ↔
    ∃ id entry, id ∉ fired ∧ graph.entries[id.index]? = some entry ∧ entry.node = .literal v := by
  simp only [waiting, List.mem_filterMap, List.mem_range]
  constructor
  · rintro ⟨index, -, hvalue⟩
    split at hvalue
    · cases hvalue
    · next hnew =>
      obtain ⟨entry, hentry, hliteral⟩ := Option.bind_eq_some_iff.mp hvalue
      exact ⟨⟨index⟩, entry, hnew, hentry, Node.fixed?_eq_some_iff.mp hliteral⟩
  · rintro ⟨id, entry, hnew, hentry, hnode⟩
    refine ⟨id.index, (Array.getElem?_eq_some_iff.mp hentry).1, ?_⟩
    rw [if_neg hnew, hentry, Option.bind_some, hnode]
    rfl

/-- The more nodes have fired, the fewer literals wait. A literal fires once in
    a run. -/
theorem waiting_subset (graph : Graph Node) {fired' : List NodeId} (hfired : fired ⊆ fired') :
    graph.waiting fired' ⊆ graph.waiting fired := by
  intro v hmem
  obtain ⟨id, entry, hnew, hliteral⟩ := mem_waiting.mp hmem
  exact mem_waiting.mpr ⟨id, entry, fun hmem => hnew (hfired hmem), hliteral⟩

/-- In a graph whose literals are unmanaged the waiting variables use no
    slots. -/
theorem slotsOf_waiting (hunmanaged : graph.Unmanaged) (fired : List NodeId) : Variable.slotsOf (graph.waiting fired) = [] := by
  refine List.flatMap_eq_nil_iff.mpr fun v hmem => ?_
  obtain ⟨id, entry, -, hentry, hnode⟩ := mem_waiting.mp hmem
  rw [Variable.slots, hunmanaged id.index entry v hentry hnode]
  rfl

/-- A literal that gives its variable waits no more. All others go on
    waiting. -/
theorem waiting_perm (hentry : graph.entries[id.index]? = some entry) (hnew : id ∉ fired) :
    (graph.waiting fired).Perm (entry.node.fixed?.toList ++ graph.waiting (fired ++ [id])) := by
  have hmem : id.index ∈ List.range graph.size := List.mem_range.mpr (Array.getElem?_eq_some_iff.mp hentry).1
  have hperm := List.perm_cons_erase hmem
  have hself : id ∈ fired ++ [id] := List.mem_append_right _ List.mem_cons_self
  refine (hperm.filterMap _).trans (List.Perm.trans ?_ ((hperm.filterMap _).symm.append_left _))
  rw [List.filterMap_cons, List.filterMap_cons]
  have hrest : ((List.range graph.size).erase id.index).filterMap (fun index =>
      if ⟨index⟩ ∈ fired then none else graph.entries[index]?.bind (·.node.fixed?)) =
      ((List.range graph.size).erase id.index).filterMap fun index =>
        if ⟨index⟩ ∈ fired ++ [id] then none else graph.entries[index]?.bind (·.node.fixed?) := by
    refine List.filterMap_congr fun index hindex => ?_
    have hne : (⟨index⟩ : NodeId) ≠ id := by
      rintro rfl
      exact (List.nodup_range.mem_erase_iff.mp hindex).1 rfl
    simp [hne]
  rw [if_neg hnew, if_pos hself, hentry, Option.bind_some, hrest]
  cases entry.node.fixed? <;> exact .refl _

/-- The operand that a node holds is one among those of the graph. The others do
    not depend on this node. -/
theorem exists_held_eq (h : graph.entries[id.index]? = some entry) : ∃ before after,
    graph.held = before ++ (entry.node.held?.toList ++ after) ∧
      ∀ node, (graph.setNode id node).held = before ++ (node.held?.toList ++ after) := by
  rw [← Array.getElem?_toList] at h
  obtain ⟨hlt, hget⟩ := List.getElem?_eq_some_iff.mp h
  let f (entry : GraphEntry Node) := entry.node.held?
  refine ⟨(graph.entries.toList.take id.index).filterMap f, (graph.entries.toList.drop (id.index + 1)).filterMap f, ?_, ?_⟩
  · rw [held]
    conv_lhs => rw [← List.take_append_drop id.index graph.entries.toList, List.drop_eq_getElem_cons hlt, hget]
    rw [List.filterMap_append, List.filterMap_cons]
    cases entry.node.held? <;> simp [f]
  · intro node
    rw [held, setNode, modifyEntry]
    dsimp only
    rw [Array.toList_modify, List.modify_eq_take_cons_drop hlt, List.filterMap_append, List.filterMap_cons]
    cases node.held? <;> simp [f]

/-- A node that takes a first operand adds it to what is held. The order is of
    no concern. -/
theorem held_setNode_perm (h : graph.entries[id.index]? = some entry) (hold : entry.node.held? = none)
    (hnew : node.held? = some v) : (graph.setNode id node).held.Perm (v :: graph.held) := by
  obtain ⟨before, after, hheld, hset⟩ := exists_held_eq h
  rw [hset, hheld, hold, hnew]
  exact List.perm_middle

/-- A node that gives up what it held takes it off. Everything else that is held
    stays. -/
theorem held_perm_setNode (h : graph.entries[id.index]? = some entry) (hold : entry.node.held? = some v)
    (hnew : node.held? = none) : graph.held.Perm (v :: (graph.setNode id node).held) := by
  obtain ⟨before, after, hheld, hset⟩ := exists_held_eq h
  rw [hset, hheld, hold, hnew]
  exact List.perm_middle

/-- A first result of a node takes no other's place. Only a second one loses the
    slot of the first. -/
theorem keep_of_not_mem (hnew : id ∉ graph.outputs.map Prod.fst) (result : Variable) :
    graph.keep id result = { graph with outputs := (id, result) :: graph.outputs } := by
  have hfilter : graph.outputs.filter (fun output => decide (output.1 ≠ id)) = graph.outputs := by
    refine List.filter_eq_self.mpr fun output hmem => decide_eq_true fun heq => hnew ?_
    exact List.mem_map.mpr ⟨output, hmem, heq⟩
  exact congrArg (fun outputs => { graph with outputs := (id, result) :: outputs }) hfilter

end Graph

namespace GraphState

variable {σ : Type} {state : GraphState Node σ} {base : List Nat} {id : NodeId} {source : Option NodeId}
  {input : Option Variable} {rest rest' dependents : List NodeId} {rounds : List Round} {v : Variable}

/-- The variables that a graph at work still needs: results on their way,
    operands held, and results kept. -/
def inUse (state : GraphState Node σ) (rounds : List Round) : List Variable :=
  rounds.filterMap Round.input ++ state.graph.held ++ state.graph.kept

/-- What is handed out belongs to the graph at work, each slot to one variable,
    or did so from the start. -/
def Accounts (base : List Nat) (rounds : List Round) (state : GraphState Node σ) : Prop :=
  state.activity.storage.allocator.Lends (Variable.slotsOf (state.inUse rounds) ++ base)

/-- A result on its way is one more variable in use, besides those that are held
    and kept. -/
theorem inUse_cons : state.inUse (⟨some id, some v, rest⟩ :: rounds) = v :: state.inUse rounds := rfl

theorem slotsOf_cons (v : Variable) (vs : List Variable) : Variable.slotsOf (v :: vs) = v.slots ++ Variable.slotsOf vs := rfl

theorem Accounts.of_perm {after : GraphState Node σ} {vs : List Variable} {others : List Round}
    (h : after.activity.storage.allocator.Lends (Variable.slotsOf vs ++ base)) (hperm : vs.Perm (after.inUse others)) :
    Accounts base others after := h.perm ((hperm.flatMap_right _).append_right base)

variable {result : Variable}

theorem slots_of_none (h : v.slot = none) : v.slots = [] := by rw [Variable.slots, h]; rfl

/-- A literal whose variable is not from the slots of an allocator has none to
    account for. -/
theorem slotsOf_literal (hunmanaged : state.graph.Unmanaged) {entry : GraphEntry Node}
    (hentry : state.graph.entries[id.index]? = some entry) : Variable.slotsOf entry.node.fixed?.toList = [] := by
  cases hnode : entry.node with
  | literal value =>
    change value.slots ++ [] = []
    rw [slots_of_none (hunmanaged id.index entry value hentry hnode), List.append_nil]
  | binary node => rfl

/-- A step of a node hands a slot over or takes one in, and the accounts stay
    right. The slot of a literal belongs to the literal up to then. -/
theorem Accounts.receives {others : List Nat} (h : Accounts base (⟨source, input, id :: rest⟩ :: rounds) state)
    (hbase : ∀ entry, state.graph.entries[id.index]? = some entry →
      base.Perm (Variable.slotsOf entry.node.fixed?.toList ++ others)) (dependents : List NodeId) :
    Ends (fun result after => match result with
        | none => Accounts base (⟨source, input, rest⟩ :: rounds) after
        | some result => Accounts others (⟨some id, some result, dependents⟩ :: ⟨source, input, rest⟩ :: rounds)
            (after.noted (.processed id result)))
      (fun _ after => Accounts base (⟨source, input, rest⟩ :: rounds) after) True
      ((GraphM.onNode id (GraphNode.process source input)).runFrom state) := by
  cases hentry : state.graph.entries[id.index]? with
  | none =>
    rw [GraphM.runFrom_onNode_of_none _ hentry]
    exact .of_error h
  | some entry =>
    have hperm := hbase entry hentry
    rw [GraphM.runFrom_process hentry]
    cases hreaction : entry.node.reaction source input with
    | refuse cause => exact .of_error h
    | give value =>
      rw [(Node.eq_literal_of_give hreaction).1] at hperm
      have hlends : state.activity.storage.allocator.Lends (value.slots ++
          (Variable.slotsOf (state.inUse (⟨source, input, rest⟩ :: rounds)) ++ others)) := by
        refine h.perm ((hperm.append_left _).trans ?_)
        change (Variable.slotsOf (state.inUse (⟨source, input, rest⟩ :: rounds)) ++ ((value.slots ++ []) ++ others)).Perm _
        rw [List.append_nil, ← List.append_assoc, ← List.append_assoc]
        exact List.perm_append_comm.append_right others
      rw [← List.append_assoc, ← slotsOf_cons] at hlends
      exact .of_ok hlends
    | hold node side operand =>
      obtain ⟨hnode, hheld, -⟩ := Node.eq_binary_of_hold hreaction
      have hends := BinaryNode.hold_lends operand h
      dsimp only
      generalize (BinaryNode.hold operand).runFrom state.activity = run at hends ⊢
      obtain ⟨(cause | fault) | held, activity⟩ := run
      · exact .of_error (hends.error cause rfl)
      · exact .of_fault trivial
      · have hlends := hends.ok held rfl
        rw [← List.append_assoc, ← slotsOf_cons] at hlends
        have hperm := Graph.held_setNode_perm hentry (by rw [hnode, Node.held?, hheld, Option.map_none])
          (show (Node.binary { node with held := some (side, held) }).held? = some held from rfl)
        refine .of_ok (Accounts.of_perm hlends ?_)
        exact (List.perm_middle.symm.trans (hperm.symm.append_left _)).append_right _
    | combine node side held operand =>
      obtain ⟨hnode, ⟨heldSide, hheld, -⟩, -⟩ := Node.eq_binary_of_combine hreaction
      rw [hnode] at hperm
      have hothers : base.Perm others := hperm
      have hperm := Graph.held_perm_setNode hentry (by rw [hnode, Node.held?, hheld, Option.map_some])
        (show (Node.binary { node with held := none }).held? = none from rfl)
      let after := state.graph.setNode id (.binary { node with held := none })
      have hlends : state.activity.storage.allocator.Lends (held.slots ++ (Variable.slotsOf
          ((⟨after, state.activity⟩ : GraphState Node σ).inUse (⟨source, input, rest⟩ :: rounds)) ++ base)) := by
        rw [← List.append_assoc, ← slotsOf_cons]
        refine h.perm (List.Perm.append_right base (List.Perm.flatMap_right _ ?_))
        exact ((hperm.append_left _).trans List.perm_middle).append_right _
      have hends := BinaryNode.combine_lends node.op side operand hlends
      dsimp only
      generalize (BinaryNode.combine node.op side held operand).runFrom state.activity = run at hends ⊢
      obtain ⟨(cause | fault) | result, activity⟩ := run
      · exact .of_error (hends.error cause rfl)
      · exact .of_fault trivial
      · have hresult := (hends.ok result rfl).perm ((hothers.append_left _).append_left _)
        rw [← List.append_assoc, ← slotsOf_cons] at hresult
        exact .of_ok hresult

/-- A result can be given up, which takes its slot out of the accounts. It is in
    use by the accounts, so that the allocator does not refuse. -/
theorem Accounts.free (h : Accounts base (⟨some id, some result, rest⟩ :: rounds) state) :
    ∃ activity, (ActivityM.free result).runFrom state.activity = (.ok (), activity) ∧
      Accounts base rounds (⟨state.graph, activity⟩ : GraphState Node σ) := by
  rw [Accounts, inUse_cons, slotsOf_cons, List.append_assoc] at h
  obtain ⟨allocator, hrun, hlends⟩ := ActivityM.free_lends h
  exact ⟨_, hrun, hlends⟩

/-- A result that is kept stays in the accounts, unless it takes the place of
    another. -/
theorem Accounts.keep (h : Accounts base (⟨some id, some result, rest⟩ :: rounds) state)
    (hnew : id ∉ state.graph.outputs.map Prod.fst) :
    Accounts base rounds (⟨state.graph.keep id result, state.activity⟩ : GraphState Node σ) := by
  refine Accounts.of_perm h ?_
  have hkept : (state.graph.keep id result).kept = result :: state.graph.kept := by
    rw [Graph.kept, Graph.keep_of_not_mem hnew]
    rfl
  rw [inUse_cons, inUse, inUse, hkept]
  exact List.perm_middle.symm

end GraphState

end StagedArrays
