import StagedArrays.Proofs.Graph.Orderly

namespace StagedArrays

open Stateful (Ends)

/-- The values of the literals are made of what a heap holds. Their own buffers
    are not those of any slot. -/
structure Graph.Grounded (origin : Heap) (graph : Graph Node) : Prop where
  unmanaged : graph.Unmanaged
  sound : ∀ {index : Nat} {entry value}, graph.entries[index]? = some entry → entry.node = .literal value →
    value.value.Sound origin
  lt_size : ∀ {index : Nat} {entry value ref offset}, graph.entries[index]? = some entry → entry.node = .literal value →
    value.value.data = .host ref offset → ref.index < origin.buffers.size

namespace GraphState

variable {σ : Type} {state after : GraphState Node σ} {plan : Graph Node} {limit start base : Nat} {origin : Heap}
  {rounds others : List Round} {id : NodeId} {source : Option NodeId} {input : Option Variable} {rest rest' : List NodeId}
  {result : Variable} {lent : List Nat}

/-- The slot of a variable is among the slots of the variables. It may be that
    of only one of them. -/
theorem mem_slotsOf {vs : List Variable} {v : Variable} (hmem : v ∈ vs) {slot : SlotId} (hslot : v.slot = some slot) :
    slot.index ∈ Variable.slotsOf vs := by
  refine List.mem_flatMap.mpr ⟨v, hmem, ?_⟩
  rw [Variable.slots, hslot]
  exact List.mem_cons_self

/-- A slot among those of variables belongs to one of them. The list has no
    other members. -/
theorem exists_of_mem_slotsOf {vs : List Variable} {index : Nat} (h : index ∈ Variable.slotsOf vs) :
    ∃ v ∈ vs, v.slot = some ⟨index⟩ := by
  obtain ⟨v, hv, hindex⟩ := List.mem_flatMap.mp h
  obtain ⟨slot, hslot, rfl⟩ := Option.map_eq_some_iff.mp (Option.mem_toList.mp hindex)
  exact ⟨v, hv, hslot⟩

/-- Slots in use are in the storage of the graph. The accounts list them among
    the slots that are handed out. -/
theorem Accounts.live (h : Accounts lent rounds state) {v : Variable} (hmem : v ∈ state.inUse rounds) {slot : SlotId}
    (hslot : v.slot = some slot) : state.activity.storage.allocator.isLive slot.index = true :=
  (h.isLive_iff slot.index).mpr (List.mem_append_left _ (mem_slotsOf hmem hslot))

/-- The slots of literals that wait are handed out. The literals have had them
    since before the run. -/
theorem Audited.live_waiting (h : Audited plan limit start lent rounds state) {v : Variable}
    (hmem : v ∈ plan.waiting (state.activity.firedSince start)) {slot : SlotId} (hslot : v.slot = some slot) :
    state.activity.storage.allocator.isLive slot.index = true :=
  (h.accounts.isLive_iff slot.index).mpr
    (List.mem_append_right _ (List.mem_append_left _ (mem_slotsOf hmem hslot)))

/-- The slots in use can be listed with those of a given variable in front. This
    serves to free it. -/
theorem Accounts.exists_lends {base : List Nat} (h : Accounts base rounds state) {v : Variable} (hmem : v ∈ state.inUse rounds) :
    ∃ slots, state.activity.storage.allocator.Lends (v.slots ++ slots) := by
  refine ⟨Variable.slotsOf ((state.inUse rounds).erase v) ++ base, ?_⟩
  rw [← List.append_assoc, ← slotsOf_cons]
  exact h.perm (((List.perm_cons_erase hmem).flatMap_right _).append_right base)

/-- Storage of a run that has left the first buffers as they were. These are the
    buffers that were there when the run began. -/
structure Sheltered (origin : Heap) (state : GraphState Node σ) : Prop where
  pooled : state.activity.storage.Pooled origin.buffers.size
  get_eq : ∀ ref : HostRef, ref.index < origin.buffers.size → state.activity.storage.world.heap.get ref = origin.get ref

/-- A run that has come to a stop, with its books and its storage in order. It
    has failed, and what was on its way is settled on the way back. -/
structure Stopped (plan : Graph Node) (limit start : Nat) (lent : List Nat) (origin : Heap) (rounds : List Round)
    (state : GraphState Node σ) : Prop extends Audited plan limit start lent rounds state, Sheltered origin state

/-- A run that goes on, and whose values are where they should be. Each variable
    in use has its elements in a buffer of the right type and length. -/
structure Steady (plan : Graph Node) (limit start : Nat) (lent : List Nat) (origin : Heap) (rounds : List Round)
    (state : GraphState Node σ) : Prop extends Orderly plan limit start lent rounds state, Sheltered origin state where
  carries : ∀ v ∈ state.inUse rounds, state.activity.storage.Carries origin.buffers.size v
  waits : ∀ v ∈ plan.waiting (state.activity.firedSince start), state.activity.storage.Carries origin.buffers.size v

/-- What a step of a node does to the graph and to storage. There is one case
    for each way in which a value is accepted. -/
inductive Steps (base : Nat) (before : GraphState Node σ) (id : NodeId) (node : Node) (source : Option NodeId)
    (input : Option Variable) : Option Variable → GraphState Node σ → Prop
  | give (value : Variable) (hnode : node = .literal value) (hinput : input = none) :
    Steps base before id node source input (some value) before
  | hold (found : BinaryNode) (side : Side) (operand held : Variable) (xs : List Numeric) (activity : Activity σ)
    (hnode : node = .binary found) (hheld : found.held = none) (hsource : source = some (found.operand side))
    (hinput : input = some operand) (hxs : operand.elements before.activity.storage.world.heap = .ok xs)
    (hgives : before.activity.storage.Gives base operand held xs activity.storage) :
    Steps base before id node source input none
      ⟨before.graph.setNode id (.binary { found with held := some (side, held) }), activity⟩
  | combine (found : BinaryNode) (side : Side) (held operand lhs rhs result : Variable) (xs : List Numeric)
    (activity : Activity σ) (hnode : node = .binary found) (hheld : found.held = some (side.other, held))
    (hsource : source = some (found.operand side)) (hinput : input = some operand)
    (harranged : BinaryNode.arranged side held operand = (lhs, rhs))
    (hxs : BinaryNode.product before.activity.storage.world.heap found.op lhs rhs = .ok xs)
    (hgives : before.activity.storage.Gives base lhs result xs activity.storage) :
    Steps base before id node source input (some result) ⟨before.graph.setNode id (.binary { found with held := none }), activity⟩

/-- Why a node cannot take a step: there is nothing that a value could be filled
    with. -/
inductive Lacks (before : GraphState Node σ) (node : Node) (source : Option NodeId) (input : Option Variable) : Prop
  | hold (found : BinaryNode) (side : Side) (operand : Variable) (hnode : node = .binary found) (hheld : found.held = none)
    (hsource : source = some (found.operand side)) (hinput : input = some operand)
    (hnone : (∃ fault, operand.layout.packedFor operand.dtype = .error fault) ∨
      ∀ xs, operand.elements before.activity.storage.world.heap ≠ .ok xs)
  | combine (found : BinaryNode) (side : Side) (held operand lhs rhs : Variable) (hnode : node = .binary found)
    (hheld : found.held = some (side.other, held)) (hsource : source = some (found.operand side)) (hinput : input = some operand)
    (harranged : BinaryNode.arranged side held operand = (lhs, rhs))
    (hnone : (∃ fault, lhs.layout.packedFor lhs.dtype = .error fault) ∨
      ∀ xs, BinaryNode.product before.activity.storage.world.heap found.op lhs rhs ≠ .ok xs)

/-- What a step gives leaves the first buffers alone. Fresh storage is taken
    from the pool, and that has buffers of its own. -/
theorem Sheltered.proceeds (h : Sheltered origin state)
    (hproceeds : state.activity.storage.Proceeds origin.buffers.size after.activity.storage) : Sheltered origin after := by
  refine ⟨hproceeds.pooled, fun ref hlt => ?_⟩
  refine (hproceeds.respects.untouched ref ?_ fun index slot hslot hdata => ?_).trans (h.get_eq ref hlt)
  · exact Nat.lt_of_lt_of_le hlt h.pooled.base_le
  · obtain ⟨other, hother, hle, -⟩ := (h.pooled.hosted hslot).backed
    rw [hdata] at hother
    cases hother
    omega

theorem Sheltered.relabels (h : Sheltered origin state) (hrelabels : state.activity.storage.Relabels after.activity.storage) :
    Sheltered origin after :=
  ⟨hrelabels.pooled h.pooled, by rw [hrelabels.world_eq]; exact h.get_eq⟩

/-- The value of a literal is at hand. -/
theorem Sheltered.carries_literal (h : Sheltered origin state) (hplan : plan.Grounded origin) {index : Nat}
    {entry : GraphEntry Node} {value : Variable} (hentry : plan.entries[index]? = some entry)
    (hnode : entry.node = .literal value) : state.activity.storage.Carries origin.buffers.size value := by
  have hslot := hplan.unmanaged index entry value hentry hnode
  refine ⟨(hplan.sound hentry hnode).of_alike (.of_get_eq fun ref offset hdata => h.get_eq ref ?_), ?_, ?_⟩
  · exact hplan.lt_size hentry hnode hdata
  · exact fun _ ref offset hdata => hplan.lt_size hentry hnode hdata
  · rw [hslot]
    exact fun _ heq => nomatch heq

/-- What literals that wait are going to give is at hand. Their buffers were
    there before the run. -/
theorem Sheltered.carries_waiting (h : Sheltered origin state) (hplan : plan.Grounded origin) (fired : List NodeId) :
    ∀ v ∈ plan.waiting fired, state.activity.storage.Carries origin.buffers.size v := by
  intro v hmem
  obtain ⟨id, entry, -, hentry, hnode⟩ := Graph.mem_waiting.mp hmem
  exact h.carries_literal hplan hentry hnode

/-- An operand in use. -/
theorem Steady.uses (h : Steady plan limit start lent origin rounds state) {v : Variable} (hmem : v ∈ state.inUse rounds) :
    state.activity.storage.Uses origin.buffers.size v :=
  ⟨h.carries v hmem, fun _ hslot => h.accounts.live hmem hslot⟩

/-- The variable of a literal that has yet to give it. -/
theorem Steady.uses_waiting (h : Steady plan limit start lent origin rounds state) {v : Variable}
    (hmem : v ∈ plan.waiting (state.activity.firedSince start)) : state.activity.storage.Uses origin.buffers.size v :=
  ⟨h.waits v hmem, fun _ hslot => h.live_waiting hmem hslot⟩

/-- What a literal gives has been waiting. -/
theorem Audited.mem_waiting (h : Audited plan limit start lent rounds state) {entry : GraphEntry Node}
    (hentry : state.graph.entries[id.index]? = some entry) (hnew : id ∉ state.activity.firedSince start) {value : Variable}
    (hnode : entry.node = .literal value) : value ∈ plan.waiting (state.activity.firedSince start) :=
  Graph.mem_waiting.mpr ⟨id, _, hnew, Graph.exists_plan_entry h.idle_eq hentry, by rw [hnode]; rfl⟩

/-- An operand that a node holds is in use. So its slot is accounted for. -/
theorem mem_inUse_of_held {entry : GraphEntry Node} {v : Variable} (hentry : state.graph.entries[id.index]? = some entry)
    (hheld : entry.node.held? = some v) (rounds : List Round) : v ∈ state.inUse rounds := by
  refine List.mem_append_left _ (List.mem_append_right _ (List.mem_filterMap.mpr ⟨entry, ?_, hheld⟩))
  exact List.mem_of_getElem? ((Array.getElem?_toList ..).trans hentry)

/-- A step of a run, and where there is none, why. The reasons are those that
    the node itself may give. -/
theorem Steady.steps (h : Steady plan limit start lent origin (⟨source, input, id :: rest⟩ :: rounds) state)
    {entry : GraphEntry Node} (hentry : state.graph.entries[id.index]? = some entry) :
    Ends (Steps origin.buffers.size state id entry.node source input)
      (fun _ after => state.activity.storage.Proceeds origin.buffers.size after.activity.storage ∧
        (∃ found, entry.node = .binary found) ∧
        (state.activity.storage.allocator.maxSlots ≤ state.activity.storage.allocator.totalSlots ∨
          Lacks state entry.node source input))
      (Lacks state entry.node source input) ((GraphM.onNode id (GraphNode.process source input)).runFrom state) := by
  obtain ⟨pending, hprogress⟩ := h.progress
  obtain ⟨found, hfound, -, haccepts⟩ := hprogress.accepts
  obtain rfl : found = entry := Option.some.inj (hfound.symm.trans hentry)
  have hheldUses {v : Variable} (hheld : found.node.held? = some v) : state.activity.storage.Uses origin.buffers.size v :=
    h.uses (mem_inUse_of_held hentry hheld _)
  have hinputUses {v : Variable} (hinput : input = some v) : state.activity.storage.Uses origin.buffers.size v :=
    h.uses (List.mem_append_left _ (List.mem_append_left _ (hinput ▸ List.mem_cons_self)))
  rw [GraphM.runFrom_process hentry]
  generalize hnode : found.node = node at haccepts hheldUses ⊢
  generalize node.reaction source input = reaction at haccepts
  cases haccepts with
  | give value => exact .of_ok (.give value rfl rfl)
  | hold node side operand hheld =>
    have hends := BinaryNode.hold_ends h.pooled (hinputUses rfl)
    dsimp only
    generalize (BinaryNode.hold operand).runFrom state.activity = run at hends ⊢
    obtain ⟨(cause | fault) | held, activity⟩ := run
    · obtain ⟨hproceeds, hreason⟩ := hends.error cause rfl
      exact .of_error ⟨hproceeds, ⟨node, rfl⟩, hreason.imp_right fun hnone =>
        .hold node side operand rfl hheld rfl rfl (.inr hnone)⟩
    · exact .of_fault (.hold node side operand rfl hheld rfl rfl (hends.fault fault rfl))
    · obtain ⟨xs, hxs, hgives⟩ := hends.ok held rfl
      exact .of_ok (.hold node side operand held xs activity rfl hheld rfl rfl hxs hgives)
  | combine node side held operand hheld =>
    obtain ⟨lhs, rhs, harranged⟩ : ∃ lhs rhs, BinaryNode.arranged side held operand = (lhs, rhs) := ⟨_, _, rfl⟩
    have hheld' : (Node.binary node).held? = some held := by rw [Node.held?, hheld, Option.map_some]
    obtain ⟨slots, hlends⟩ := h.accounts.exists_lends (mem_inUse_of_held hentry (hnode ▸ hheld') _)
    have hends := BinaryNode.combine_ends node.op side h.pooled (hheldUses hheld') (hinputUses rfl) hlends harranged
    dsimp only
    generalize (BinaryNode.combine node.op side held operand).runFrom state.activity = run at hends ⊢
    obtain ⟨(cause | fault) | result, activity⟩ := run
    · obtain ⟨hproceeds, hreason⟩ := hends.error cause rfl
      exact .of_error ⟨hproceeds, ⟨node, rfl⟩, hreason.imp_right fun hnone =>
        .combine node side held operand lhs rhs rfl hheld rfl rfl harranged (.inr hnone)⟩
    · exact .of_fault (.combine node side held operand lhs rhs rfl hheld rfl rfl harranged (hends.fault fault rfl))
    · obtain ⟨xs, hxs, hgives⟩ := hends.ok result rfl
      exact .of_ok (.combine node side held operand lhs rhs result xs activity rfl hheld rfl rfl harranged hxs hgives)

variable {node : Node} {given : Option Variable}

/-- A step leaves slots in use alone. It takes at most one slot, and fills
    it. -/
theorem Steps.proceeds (h : Steps base state id node source input given after) (hpooled : state.activity.storage.Pooled base) :
    state.activity.storage.Proceeds base after.activity.storage := by
  cases h with
  | give value hnode hinput => exact .refl hpooled
  | hold found side operand held xs activity hnode hheld hsource hinput hxs hgives => exact hgives.toProceeds
  | combine found side held operand lhs rhs result xs activity hnode hheld hsource hinput harranged hxs hgives =>
    exact hgives.toProceeds

/-- What a step gives is at hand. -/
theorem Steps.carries_given (h : Steps base state id node source input (some result) after)
    (hliteral : ∀ value, node = .literal value → state.activity.storage.Carries base value) :
    after.activity.storage.Carries base result := by
  cases h with
  | give value hvalue hinput => exact hliteral result hvalue
  | combine found side held operand lhs rhs result xs activity hfound hheld hsource hinput harranged hxs hgives =>
    exact hgives.carries

/-- Apart from what a step gives, what is in use after it was so before, or is
    held since. -/
theorem Steps.mem_inUse (h : Steps base state id node source input given after) {entry : GraphEntry Node}
    (hentry : state.graph.entries[id.index]? = some entry) (hnode : entry.node = node) {v : Variable}
    (hmem : v ∈ after.inUse rounds) : v ∈ state.inUse rounds ∨ after.activity.storage.Carries base v ∧
      ∃ found, after.graph.entries[id.index]? = some found ∧ found.node.held? = some v := by
  cases h with
  | give value _ hinput => exact .inl hmem
  | hold found side operand held xs activity hfound hheld hsource hinput hxs hgives =>
    have hperm := Graph.held_setNode_perm hentry (by rw [hnode, hfound, Node.held?, hheld, Option.map_none])
      (show (Node.binary { found with held := some (side, held) }).held? = some held from rfl)
    rcases List.mem_append.mp hmem with hmem | hmem
    · rcases List.mem_append.mp hmem with hmem | hmem
      · exact .inl (List.mem_append_left _ (List.mem_append_left _ hmem))
      · rcases List.mem_cons.mp (hperm.mem_iff.mp hmem) with rfl | hmem
        · refine .inr ⟨hgives.carries, { entry with node := .binary { found with held := some (side, v) } }, ?_, rfl⟩
          rw [Graph.getElem?_setNode, if_pos rfl, hentry, Option.map_some]
        · exact .inl (List.mem_append_left _ (List.mem_append_right _ hmem))
    · exact .inl (List.mem_append_right _ hmem)
  | combine found side held operand lhs rhs result xs activity hfound hheld hsource hinput harranged hxs hgives =>
    have hperm := Graph.held_perm_setNode hentry (by rw [hnode, hfound, Node.held?, hheld, Option.map_some])
      (show (Node.binary { found with held := none }).held? = none from rfl)
    rcases List.mem_append.mp hmem with hmem | hmem
    · rcases List.mem_append.mp hmem with hmem | hmem
      · exact .inl (List.mem_append_left _ (List.mem_append_left _ hmem))
      · exact .inl (List.mem_append_left _ (List.mem_append_right _ (hperm.mem_iff.mpr (List.mem_cons_of_mem _ hmem))))
    · exact .inl (List.mem_append_right _ hmem)

/-- A step keeps a run steady. If it fails the run has stopped, with its books
    in order. -/
theorem Steady.receives (h : Steady plan limit start lent origin (⟨source, input, id :: rest⟩ :: rounds) state) :
    Ends (fun result after => match result with
        | none => Steady plan limit start lent origin (⟨source, input, rest⟩ :: rounds) after
        | some result => Steady plan limit start lent origin
            (⟨some id, some result, plan.dependents id⟩ :: ⟨source, input, rest⟩ :: rounds) (after.noted (.processed id result)))
      (fun _ after => Stopped plan limit start lent origin (⟨source, input, rest⟩ :: rounds) after) True
      ((GraphM.onNode id (GraphNode.process source input)).runFrom state) := by
  obtain ⟨pending, hprogress⟩ := h.progress
  obtain ⟨entry, hentry, hnew, -⟩ := hprogress.accepts
  refine ((h.toOrderly.receives.and (h.steps hentry)).and (same_process h.start_le id source input)).mono ?_ ?_
  · rintro given after ⟨⟨horderly, hsteps⟩, hsame⟩
    have hproceeds := hsteps.proceeds h.pooled
    have hsheltered : Sheltered origin after := h.toSheltered.proceeds hproceeds
    have hkeeps {v : Variable} (huses : state.activity.storage.Uses origin.buffers.size v) :
        after.activity.storage.Carries origin.buffers.size v :=
      hproceeds.respects.carries h.pooled huses.toCarries huses.live
    have hcarries (v : Variable) (hmem : v ∈ after.inUse (⟨source, input, rest⟩ :: rounds)) :
        after.activity.storage.Carries origin.buffers.size v := by
      rcases hsteps.mem_inUse hentry rfl hmem with hmem | ⟨hnew, -⟩
      · exact hkeeps (h.uses hmem)
      · exact hnew
    have hwaits (v : Variable) (hmem : v ∈ plan.waiting (state.activity.firedSince start)) :
        after.activity.storage.Carries origin.buffers.size v := hkeeps (h.uses_waiting hmem)
    cases given with
    | none => exact ⟨horderly, hsheltered, hcarries, hsame.fired ▸ hwaits⟩
    | some result =>
      have hfired : (after.noted (.processed id result)).activity.firedSince start =
          state.activity.firedSince start ++ [id] :=
        (firedSince_noted (Nat.le_trans h.start_le hsame.size_le) _).trans (congrArg (· ++ [id]) hsame.fired)
      refine ⟨horderly, ⟨hsheltered.pooled, hsheltered.get_eq⟩, fun v hmem => ?_, fun v hmem => ?_⟩
      · rcases List.mem_cons.mp hmem with rfl | hmem
        · exact hsteps.carries_given fun value hnode => h.waits value (h.mem_waiting hentry hnew hnode)
        · exact hcarries v hmem
      · rw [hfired] at hmem
        exact hwaits v (plan.waiting_subset (List.subset_append_left _ _) hmem)
  · rintro cause after ⟨⟨haudited, hproceeds, -⟩, -⟩
    exact ⟨haudited, h.toSheltered.proceeds hproceeds⟩

/-- What is in use after a result was settled was so before. -/
theorem mem_inUse_of_settle {retention : Retention} (hgraph : after.graph = state.graph.settled id result retention)
    {v : Variable} (hmem : v ∈ after.inUse rounds) : v ∈ state.inUse (⟨some id, some result, rest⟩ :: rounds) := by
  rw [inUse_cons]
  rw [inUse, hgraph] at hmem
  cases retention with
  | free => exact List.mem_cons_of_mem _ hmem
  | output =>
    rcases List.mem_append.mp hmem with hmem | hmem
    · exact List.mem_cons_of_mem _ (List.mem_append_left _ hmem)
    · obtain ⟨output, houtput, rfl⟩ := List.mem_map.mp hmem
      rcases List.mem_cons.mp houtput with rfl | houtput
      · exact List.mem_cons_self
      · exact List.mem_cons_of_mem _ (List.mem_append_right _ (List.mem_map_of_mem (List.mem_filter.mp houtput).1))

/-- Settling a result keeps a run steady. A slot that is given up is in use no
    more. -/
theorem Steady.settles (h : Steady plan limit start lent origin (⟨some id, some result, []⟩ :: rounds) state)
    {dependents : List NodeId} {retention : Retention} (hwiring : plan.wiring id = some (dependents, retention)) :
    ∃ after, (GraphM.settleResult id retention result).runFrom state = (.ok (), after) ∧
      Steady plan limit start lent origin rounds after ∧ state.activity.storage.Relabels after.activity.storage ∧
      after.activity.firedSince start = state.activity.firedSince start ∧ after.graph = state.graph.settled id result retention := by
  obtain ⟨after, hrun, horderly, hrelabels, hfired, hgraph⟩ := h.toOrderly.settles hwiring
  have hsheltered : Sheltered origin after := h.toSheltered.relabels hrelabels
  refine ⟨after, hrun, ⟨horderly, hsheltered, fun v hmem => ?_, fun v hmem => ?_⟩, hrelabels, hfired, hgraph⟩
  · exact hrelabels.carries (h.carries v (mem_inUse_of_settle hgraph hmem))
  · exact hrelabels.carries (h.waits v (hfired ▸ hmem))

/-- A run that has come to a stop still settles the results on their way. For a
    result that is not kept that means to free it. -/
theorem Stopped.settles (h : Stopped plan limit start lent origin (⟨some id, some result, rest⟩ :: rounds) state)
    {dependents : List NodeId} {retention : Retention} (hwiring : plan.wiring id = some (dependents, retention)) :
    ∃ after, (GraphM.settleResult id retention result).runFrom state = (.ok (), after) ∧
      Stopped plan limit start lent origin rounds after ∧ state.activity.storage.Relabels after.activity.storage ∧
      after.graph = state.graph.settled id result retention := by
  obtain ⟨after, hrun, haudited, hrelabels, -, hgraph⟩ := h.toAudited.settles hwiring
  exact ⟨after, hrun, ⟨haudited, h.toSheltered.relabels hrelabels⟩, hrelabels, hgraph⟩

theorem Stopped.skip (h : Stopped plan limit start lent origin (⟨source, input, rest⟩ :: rounds) state) :
    Stopped plan limit start lent origin (⟨source, input, rest'⟩ :: rounds) state :=
  ⟨h.toAudited.skip, h.toSheltered⟩

/-- A run begins with nothing in use. -/
theorem inUse_start {before : GraphState Node σ} (hidle : before.graph.idle = before.graph) :
    before.inUse [⟨none, none, before.graph.leaves⟩] = [] := by
  have houtputs : before.graph.outputs = [] := by rw [← hidle]; rfl
  rw [inUse, Graph.kept, houtputs, ← hidle, Graph.held_idle]
  rfl

/-- Before a run: the graph as it is planned, and the slots of its literals in
    use. -/
structure Ready (plan : Graph Node) (lent : List Nat) (origin : Heap) (state : GraphState Node σ) : Prop
    extends Sheltered origin state where
  graph_eq : state.graph = plan
  lends : state.activity.storage.allocator.Lends (Variable.slotsOf (plan.waiting []) ++ lent)
  waits : ∀ v ∈ plan.waiting [], state.activity.storage.Carries origin.buffers.size v

/-- Literals without slots need none in use. So the allocator may be as it was
    before the run. -/
theorem Sheltered.ready (h : Sheltered origin state) (hliterals : state.graph.Grounded origin)
    (hlends : state.activity.storage.allocator.Lends []) : Ready state.graph [] origin state := by
  refine ⟨h, rfl, ?_, h.carries_waiting hliterals []⟩
  rw [Graph.slotsOf_waiting hliterals.unmanaged]
  exact hlends

/-- A graph that is ready is steady at the start of its run, with one round from
    no source to all the leaves. -/
theorem Ready.steady (h : Ready plan lent origin state) (hidle : plan.idle = plan) (hexact : plan.Exact) :
    Steady plan (GraphM.depthLimit state) state.activity.journal.size lent origin [⟨none, none, plan.leaves⟩] state := by
  obtain rfl := h.graph_eq
  have houtputs : state.graph.outputs = [] := by rw [← hidle]; rfl
  have hfired := state.activity.firedSince_size
  refine ⟨⟨⟨tally_start _ _ houtputs, hidle, rfl, ?_⟩, state.graph.handed, hfired ▸ .start hexact hidle⟩, h.toSheltered, ?_, ?_⟩
  · rw [Accounts, inUse_start hidle, hfired]
    exact h.lends
  · simp [inUse_start hidle]
  · rw [hfired]
    exact h.waits

/-- A run is steady as long as it succeeds, and stopped after its first failure.
    Every step keeps one or the other, and only an overflow ends both. -/
theorem steady_invariant :
    GraphM.Invariant plan.wiring limit (fun rounds (state : GraphState Node σ) => Steady plan limit start lent origin rounds state)
      (fun _ rounds state => Stopped plan limit start lent origin rounds state) True where
  wired h := by rw [← h.idle_eq, Graph.wiring_idle]
  limited h := h.limit_eq
  bounded _ _ := trivial
  receives h := by
    rw [← Graph.dependents_eq]
    exact h.receives
  settles h hwiring := by
    obtain ⟨after, hrun, hafter, -⟩ := h.settles hwiring
    rw [hrun]
    exact .of_ok hafter
  settles_failing h hwiring := by
    obtain ⟨after, hrun, hafter, -⟩ := h.settles hwiring
    rw [hrun]
    exact .of_ok hafter
  failing_skip _ h := h.skip

end GraphState

end StagedArrays
