import StagedArrays.Proofs.Graph.Cycles
import StagedArrays.Proofs.Graph.Supply

namespace StagedArrays

open Stateful (Ends)

namespace Graph

variable {graph : Graph Node} {id : NodeId} {v : Variable}

/-- The literals with their variables. They are listed in the order of their
    names. -/
def literalVariables (graph : Graph Node) : List (NodeId × Variable) :=
  (List.range graph.size).filterMap fun index => (graph.entries[index]?.bind (·.node.fixed?)).map (⟨index⟩, ·)

/-- The variables of literals are those of the entries that are literals, under
    their numbers. -/
theorem mem_literalVariables : (id, v) ∈ graph.literalVariables ↔
    ∃ entry, graph.entries[id.index]? = some entry ∧ entry.node = .literal v := by
  simp only [literalVariables, List.mem_filterMap, List.mem_range]
  constructor
  · rintro ⟨index, -, hliteral⟩
    obtain ⟨value, hvalue, hpair⟩ := Option.map_eq_some_iff.mp hliteral
    obtain ⟨rfl, rfl⟩ := Prod.mk.inj hpair
    obtain ⟨entry, hentry, hnode⟩ := Option.bind_eq_some_iff.mp hvalue
    exact ⟨entry, hentry, Node.fixed?_eq_some_iff.mp hnode⟩
  · rintro ⟨entry, hentry, hnode⟩
    refine ⟨id.index, (Array.getElem?_eq_some_iff.mp hentry).1, ?_⟩
    rw [hentry, Option.bind_some, hnode]
    rfl

/-- All literals wait as long as nothing has fired. -/
theorem map_literalVariables (graph : Graph Node) : graph.literalVariables.map Prod.snd = graph.waiting [] := by
  rw [literalVariables, waiting, List.map_filterMap]
  refine List.filterMap_congr fun index _ => ?_
  rw [if_neg List.not_mem_nil, Option.map_map]
  exact Option.map_id'

/-- No literal is listed twice, since their numbers differ. -/
theorem nodup_literalVariables (graph : Graph Node) : graph.literalVariables.Nodup := by
  refine List.Nodup.filterMap (fun index other literal hmem hmem' => ?_) List.nodup_range
  obtain ⟨_, -, rfl⟩ := Option.map_eq_some_iff.mp hmem
  obtain ⟨_, -, hsame⟩ := Option.map_eq_some_iff.mp hmem'
  exact (NodeId.mk.inj (congrArg Prod.fst hsame)).symm

/-- A node that is no operation is a literal. There is no third kind of node. -/
theorem exists_mem_literalVariables (hlt : id.index < graph.size) (hbinary : graph.isBinary id = false) :
    ∃ value, (id, value) ∈ graph.literalVariables := by
  have hentry : graph.entries[id.index]? = some graph.entries[id.index] := Array.getElem?_eq_getElem hlt
  rw [isBinary_of_entry hentry] at hbinary
  cases hnode : graph.entries[id.index].node with
  | literal value => exact ⟨value, mem_literalVariables.mpr ⟨_, hentry, hnode⟩⟩
  | binary node =>
    rw [hnode] at hbinary
    cases hbinary

theorem isBinary_of_mem_literalVariables (hmem : (id, v) ∈ graph.literalVariables) : graph.isBinary id = false := by
  obtain ⟨entry, hentry, hnode⟩ := mem_literalVariables.mp hmem
  rw [isBinary_of_entry hentry, hnode]
  rfl

/-- The results of the literals are kept, and so their slots are never given
    up. -/
def Retains (graph : Graph Node) : Prop :=
  ∀ literal ∈ graph.literalVariables, (graph.wiring literal.1).map Prod.snd = some .output

end Graph

namespace GraphState

variable {σ : Type} {state after : GraphState Node σ} {plan : Graph Node} {limit start : Nat} {lent : List Nat}
  {origin heap : Heap} {rounds : List Round} {id : NodeId} {source : Option NodeId} {input : Option Variable} {rest : List NodeId}
  {result : Variable}

/-- A literal has yet to give its variable, or the variable is on its way, or
    kept. -/
def Placed (start : Nat) (rounds : List Round) (state : GraphState Node σ) (literal : NodeId × Variable) : Prop :=
  literal.1 ∉ state.activity.firedSince start ∨
    (∃ round ∈ rounds, round.source = some literal.1 ∧ round.input = some literal.2) ∨ literal ∈ state.graph.outputs

/-- A run in which the literals keep their slots, and what is in them. This
    needs each literal to be among the outputs that are kept. -/
structure Lasting (plan : Graph Node) (limit start : Nat) (lent : List Nat) (origin heap : Heap) (rounds : List Round)
    (state : GraphState Node σ) : Prop extends Steady plan limit start lent origin rounds state where
  placed : ∀ literal ∈ plan.literalVariables, Placed start rounds state literal
  agrees : ∀ literal ∈ plan.literalVariables, literal.2.Agrees heap state.activity.storage.world.heap

/-- The variable of a literal is in use throughout a run in which it is placed,
    so that no step can write into it. -/
theorem Placed.uses {literal : NodeId × Variable} (h : Placed start rounds state literal)
    (hsteady : Steady plan limit start lent origin rounds state) (hmem : literal ∈ plan.literalVariables) :
    state.activity.storage.Uses origin.buffers.size literal.2 := by
  rcases h with hnew | ⟨round, hround, -, hinput⟩ | houtput
  · obtain ⟨entry, hentry, hnode⟩ := Graph.mem_literalVariables.mp hmem
    exact hsteady.uses_waiting (Graph.mem_waiting.mpr ⟨literal.1, entry, hnew, hentry, hnode⟩)
  · refine hsteady.uses (List.mem_append_left _ (List.mem_append_left _ ?_))
    exact List.mem_filterMap.mpr ⟨round, hround, hinput⟩
  · exact hsteady.uses (List.mem_append_right _ (List.mem_map_of_mem houtput))

/-- What a literal gives is its variable. No storage is taken for it. -/
theorem Steps.eq_of_literal {base : Nat} {node : Node} {value given : Variable}
    (h : Steps base state id node source input (some given) after) (hliteral : node.idle = .literal value) : given = value := by
  cases h with
  | give value' hnode hinput =>
    rw [hnode] at hliteral
    exact Node.literal.inj hliteral
  | combine found side held operand lhs rhs result xs activity hnode hheld hsource hinput harranged hxs hgives =>
    rw [hnode] at hliteral
    cases hliteral

/-- A step leaves the variables of the literals alone. They are in use as long
    as they are waiting, on their way or kept. -/
theorem Lasting.receives (h : Lasting plan limit start lent origin heap (⟨source, input, id :: rest⟩ :: rounds) state) :
    Ends (fun given after => match given with
        | none => Lasting plan limit start lent origin heap (⟨source, input, rest⟩ :: rounds) after
        | some result => Lasting plan limit start lent origin heap
            (⟨some id, some result, plan.dependents id⟩ :: ⟨source, input, rest⟩ :: rounds) (after.noted (.processed id result)))
      (fun _ _ => True) True ((GraphM.onNode id (GraphNode.process source input)).runFrom state) := by
  obtain ⟨pending, hprogress⟩ := h.progress
  obtain ⟨entry, hentry, -, -⟩ := hprogress.accepts
  have hplanned := Graph.exists_plan_entry h.idle_eq hentry
  refine ((h.toSteady.receives.and (h.steps hentry)).and (same_process h.start_le id source input)).mono ?_ fun _ _ _ => trivial
  rintro given after ⟨⟨hsteady, hsteps⟩, hsame⟩
  have hagrees (literal : NodeId × Variable) (hmem : literal ∈ plan.literalVariables) :
      literal.2.Agrees heap after.activity.storage.world.heap := by
    have huses := (h.placed literal hmem).uses h.toSteady hmem
    refine (h.agrees literal hmem).trans (Variable.agrees_of_alike huses.sound ?_)
    exact (hsteps.proceeds h.pooled).respects.alike h.pooled huses.toCarries huses.live
  have hflying {literal : NodeId × Variable} (hround : ∃ round ∈ (⟨source, input, id :: rest⟩ :: rounds : List Round),
      round.source = some literal.1 ∧ round.input = some literal.2) :
      ∃ round ∈ (⟨source, input, rest⟩ :: rounds : List Round), round.source = some literal.1 ∧ round.input = some literal.2 := by
    obtain ⟨round, hround, hliteral⟩ := hround
    rcases List.mem_cons.mp hround with rfl | hround
    · exact ⟨_, List.mem_cons_self, hliteral⟩
    · exact ⟨round, List.mem_cons_of_mem _ hround, hliteral⟩
  cases given with
  | none =>
    refine ⟨hsteady, fun literal hmem => ?_, hagrees⟩
    rcases h.placed literal hmem with hnew | hround | houtput
    · exact .inl (hsame.fired ▸ hnew)
    · exact .inr (.inl (hflying hround))
    · exact .inr (.inr (hsame.outputs ▸ houtput))
  | some result =>
    refine ⟨hsteady, fun literal hmem => ?_, hagrees⟩
    by_cases hid : literal.1 = id
    · obtain ⟨found, hfound, hnode⟩ := Graph.mem_literalVariables.mp hmem
      rw [hid, hplanned] at hfound
      cases hfound
      obtain rfl := hsteps.eq_of_literal hnode
      exact .inr (.inl ⟨_, List.mem_cons_self, congrArg some hid.symm, rfl⟩)
    · rcases h.placed literal hmem with hnew | hround | houtput
      · refine .inl ?_
        rw [firedSince_noted (Nat.le_trans h.start_le hsame.size_le), hsame.fired]
        simpa [Event.processed?, hid] using hnew
      · obtain ⟨round, hround, hliteral⟩ := hflying hround
        exact .inr (.inl ⟨round, List.mem_cons_of_mem _ hround, hliteral⟩)
      · exact .inr (.inr (show literal ∈ after.graph.outputs from hsame.outputs ▸ houtput))

/-- A literal whose result is settled has it kept. Otherwise its slot would be
    given up, and the next run would lack it. -/
theorem Lasting.settles (h : Lasting plan limit start lent origin heap (⟨some id, some result, []⟩ :: rounds) state)
    (hretains : plan.Retains) {dependents : List NodeId} {retention : Retention}
    (hwiring : plan.wiring id = some (dependents, retention)) :
    Ends (fun _ after => Lasting plan limit start lent origin heap rounds after) (fun _ _ => True) True
      ((GraphM.settleResult id retention result).runFrom state) := by
  obtain ⟨after, hrun, hsteady, hrelabels, hfired, hgraph⟩ := h.toSteady.settles hwiring
  rw [hrun]
  refine .of_ok ⟨hsteady, fun literal hmem => ?_, fun literal hmem => ?_⟩
  · rcases h.placed literal hmem with hnew | ⟨round, hround, hsource, hinput⟩ | houtput
    · exact .inl (hfired ▸ hnew)
    · rcases List.mem_cons.mp hround with rfl | hround
      · have hretention := hretains literal hmem
        cases hsource
        cases hinput
        rw [hwiring] at hretention
        cases hretention
        refine .inr (.inr ?_)
        rw [hgraph]
        exact List.mem_cons_self
      · exact .inr (.inl ⟨round, hround, hsource, hinput⟩)
    · have hne : literal.1 ≠ id := fun heq => h.not_mem_outputs (heq ▸ List.mem_map_of_mem houtput)
      refine .inr (.inr ?_)
      rw [hgraph]
      cases retention with
      | free => exact houtput
      | output => exact List.mem_cons_of_mem _ (List.mem_filter.mpr ⟨houtput, decide_eq_true hne⟩)
  · rw [hrelabels.world_eq]
    exact h.agrees literal hmem

/-- The invariant behind a second run: literals that are retained keep their
    slots and what is in them, from the first step to the last. -/
theorem lasting_invariant (hretains : plan.Retains) :
    GraphM.Invariant plan.wiring limit
      (fun rounds (state : GraphState Node σ) => Lasting plan limit start lent origin heap rounds state)
      (fun _ _ _ => True) True where
  wired h := by rw [← h.idle_eq, Graph.wiring_idle]
  limited h := h.limit_eq
  bounded _ _ := trivial
  receives h := by
    rw [← Graph.dependents_eq]
    exact h.receives
  settles h hwiring := h.settles hretains hwiring
  settles_failing _ _ := ⟨fun _ _ => trivial, fun _ _ => trivial, fun _ _ => trivial⟩
  failing_skip _ _ := trivial

/-- A run that is about to begin has all its literals waiting. What they hold is
    what it will be compared with. -/
theorem Ready.lasting (h : Ready plan lent origin state) (hidle : plan.idle = plan) (hexact : plan.Exact) :
    Lasting plan (GraphM.depthLimit state) state.activity.journal.size lent origin state.activity.storage.world.heap
      [⟨none, none, plan.leaves⟩] state := by
  refine ⟨h.steady hidle hexact, fun literal _ => .inl ?_, fun literal _ _ _ => rfl⟩
  rw [Activity.firedSince_size]
  exact List.not_mem_nil

section Done

variable (h : Lasting plan limit start lent origin heap [⟨none, none, []⟩] state) (hacyclic : plan.Acyclic) (hexact : plan.Exact)
include h hacyclic hexact

/-- At the end of a run all literals are among the outputs, -/
theorem Lasting.mem_outputs {literal : NodeId × Variable} (hmem : literal ∈ plan.literalVariables) :
    literal ∈ state.graph.outputs := by
  rcases h.placed literal hmem with hnew | ⟨round, hround, hsource, -⟩ | houtput
  · obtain ⟨entry, hentry, -⟩ := Graph.mem_literalVariables.mp hmem
    exact (hnew ((h.mem_fired_iff hacyclic hexact _).mpr (Array.getElem?_eq_some_iff.mp hentry).1)).elim
  · rw [List.mem_singleton.mp hround] at hsource
    cases hsource
  · exact houtput

/-- and all other outputs are results of operations. -/
theorem Lasting.outputs_perm :
    (state.graph.outputs.filter fun output => !plan.isBinary output.1).Perm plan.literalVariables := by
  have hkeys := h.nodup_keys
  have hnodup := (List.Nodup.of_map Prod.fst hkeys).filter fun output => !plan.isBinary output.1
  refine (List.perm_ext_iff_of_nodup hnodup plan.nodup_literalVariables).mpr fun output => ?_
  rw [List.mem_filter, Bool.not_eq_true']
  constructor
  · rintro ⟨houtput, hbinary⟩
    have hfired := h.mem_fired_of_mem_outputs houtput
    obtain ⟨value, hvalue⟩ := Graph.exists_mem_literalVariables ((h.mem_fired_iff hacyclic hexact _).mp hfired) hbinary
    rwa [List.inj_on_of_nodup_map hkeys houtput (h.mem_outputs hacyclic hexact hvalue) rfl]
  · exact fun hmem => ⟨h.mem_outputs hacyclic hexact hmem, Graph.isBinary_of_mem_literalVariables hmem⟩

/-- So it is the literals that still have slots once the other outputs are given
    back. -/
theorem Lasting.ran {others : List (NodeId × Variable)}
    (hperm : others.Perm (state.graph.outputs.filter fun output => plan.isBinary output.1)) :
    Ran plan (Variable.slotsOf (plan.waiting []) ++ lent) origin others state.handOver := by
  have hsplit : state.graph.outputs.Perm (others ++ plan.literalVariables) :=
    (List.filter_append_perm (fun output => plan.isBinary output.1) state.graph.outputs).symm.trans
      (hperm.symm.append (h.outputs_perm hacyclic hexact))
  have hslots := (hsplit.map Prod.snd).flatMap_right Variable.slots
  rw [List.map_append, List.flatMap_append, Graph.map_literalVariables] at hslots
  have hheld : state.handOver.inUse [] = [] := (List.append_nil _).trans (h.held_eq_nil hacyclic hexact)
  refine ⟨⟨h.pooled, h.get_eq⟩, h.idle_eq, ?_⟩
  rw [hheld]
  refine (h.lends_outputs hacyclic hexact).perm ?_
  exact (hslots.append_right lent).trans (.of_eq (List.append_assoc ..))

end Done

end GraphState

namespace GraphM

variable {σ : Type} {before ran : GraphState Node σ} {outputs others : List (NodeId × Variable)}

/-- A graph can start over literals that have been allocated. Their variables
    have to be in use at the same time. -/
theorem ready_of_supplies
    (hsupplies : before.activity.storage.Supplies (before.graph.literalVariables.map Prod.snd)) :
    ∃ lent, GraphState.Ready before.graph lent ⟨#[]⟩ before := by
  rw [Graph.map_literalVariables] at hsupplies
  obtain ⟨lent, hlends⟩ := hsupplies.exists_lends
  exact ⟨lent, ⟨hsupplies.pooled, fun _ hlt => (Nat.not_lt_zero _ hlt).elim⟩, rfl, hlends,
    fun v hv => (hsupplies.uses v hv).toCarries⟩

/-- A run leaves the literals alone. -/
theorem lasting_of_run {plan : Graph Node} {lent : List Nat} {origin : Heap} (hready : GraphState.Ready plan lent origin before)
    (hidle : plan.idle = plan) (hexact : plan.Exact) (hretains : plan.Retains)
    (hrun : run.runFrom before = (.ok outputs, ran)) :
    ∃ ended, GraphState.Lasting plan (depthLimit before) before.activity.journal.size lent origin
      before.activity.storage.world.heap [⟨none, none, []⟩] ended ∧ outputs = ended.graph.outputs ∧ ran = ended.handOver := by
  obtain rfl := hready.graph_eq
  have hends := (GraphState.lasting_invariant hretains).run_ends (hready.lasting hidle hexact)
  rw [hrun] at hends
  exact hends.ok outputs rfl

/-- After a run the slot of a literal is in use only as that of an output: that
    of a literal which is not kept is free, or has been handed out to another
    node. -/
theorem exists_output_of_isLive {plan : Graph Node} {lent : List Nat} {origin : Heap} {literal : NodeId × Variable}
    {slot : SlotId} (hready : GraphState.Ready plan lent origin before) (hidle : plan.idle = plan) (hexact : plan.Exact)
    (hacyclic : plan.Acyclic) (hrun : run.runFrom before = (.ok outputs, ran)) (hmem : literal ∈ plan.literalVariables)
    (hslot : literal.2.slot = some slot) (hlive : ran.activity.storage.allocator.isLive slot.index = true) :
    ∃ output ∈ outputs, output.2.slot = some slot := by
  obtain rfl := hready.graph_eq
  have hends := GraphState.steady_invariant.run_ends (hready.steady hidle hexact)
  rw [hrun] at hends
  obtain ⟨ended, hsteady, rfl, rfl⟩ := hends.ok outputs rfl
  have hlent := ((hsteady.lends_outputs hacyclic hexact).isLive_iff slot.index).mp hlive
  rcases List.mem_append.mp hlent with houtput | hother
  · obtain ⟨v, hv, hindex⟩ := GraphState.exists_of_mem_slotsOf houtput
    obtain ⟨output, hmem, rfl⟩ := List.mem_map.mp hv
    exact ⟨output, hmem, hindex⟩
  · have hwaiting : literal.2 ∈ before.graph.waiting [] := by
      rw [← Graph.map_literalVariables]
      exact List.mem_map_of_mem hmem
    exact ((List.nodup_append.mp hready.lends.nodup).2.2 _ (GraphState.mem_slotsOf hwaiting hslot) _ hother rfl).elim

/-- A graph over literals that have slots of their own and are kept runs again:
    once all other outputs are given back and it is reset, it comes to the same
    outputs with the same elements, and the literals are as they were all
    along. -/
theorem run_again_of_retains
    (hsupplies : before.activity.storage.Supplies (before.graph.literalVariables.map Prod.snd))
    (hidle : before.graph.idle = before.graph) (hexact : before.graph.Exact) (hacyclic : before.graph.Acyclic)
    (hretains : before.graph.Retains) (hrun : run.runFrom before = (.ok outputs, ran))
    (hothers : others.Perm (outputs.filter fun output => before.graph.isBinary output.1)) :
    ∃ freed cleared again, (freeOutputs others).runFrom ran = (.ok (), freed) ∧ reset.runFrom freed = (.ok (), cleared) ∧
      run.runFrom cleared = (.ok outputs, again) ∧
      contents again.activity.storage.world.heap outputs = contents ran.activity.storage.world.heap outputs ∧
      ∀ literal ∈ before.graph.literalVariables, ∀ state ∈ [ran, cleared, again],
        literal.2.elements state.activity.storage.world.heap = literal.2.elements before.activity.storage.world.heap := by
  obtain ⟨lent, hready⟩ := ready_of_supplies hsupplies
  obtain ⟨ended, hlasting, rfl, rfl⟩ := lasting_of_run hready hidle hexact hretains hrun
  obtain ⟨freed, cleared, hfree, hreset, hcleared, hrested⟩ := (hlasting.ran hacyclic hexact hothers).rests (.refl _)
  have hworld : cleared.activity.storage.world = ended.activity.storage.world := hcleared.world_eq
  have hagrees (literal : NodeId × Variable) (hmem : literal ∈ before.graph.literalVariables) :
      literal.2.Agrees before.activity.storage.world.heap cleared.activity.storage.world.heap := by
    rw [hworld]
    exact hlasting.agrees literal hmem
  have hready' : GraphState.Ready before.graph lent ⟨#[]⟩ cleared := by
    refine ⟨hrested.toSheltered, hrested.graph_eq, hrested.lends, fun v hmem => ?_⟩
    rw [← Graph.map_literalVariables] at hmem
    obtain ⟨literal, hliteral, rfl⟩ := List.mem_map.mp hmem
    exact hcleared.carries ((hlasting.placed literal hliteral).uses hlasting.toSteady hliteral).toCarries
  have hwaiting : ∀ v ∈ before.graph.waiting [],
      v.Agrees before.activity.storage.world.heap cleared.activity.storage.world.heap := by
    rw [← Graph.map_literalVariables]
    exact List.forall_mem_map.mpr hagrees
  obtain ⟨again, hagain, -, -, hcontents⟩ := run_again hexact hidle hready hready' hsupplies.bounded hwaiting hrun
    (fun _ heq => nomatch heq) hrested.maxSlots_eq hrested.statics_eq
  obtain ⟨ended', hlasting', -, rfl⟩ := lasting_of_run hready' hidle hexact hretains hagain
  refine ⟨freed, cleared, _, hfree, hreset, hagain, Except.ok.inj hcontents, fun literal hmem state hstate => ?_⟩
  simp only [List.mem_cons, List.not_mem_nil, or_false] at hstate
  rcases hstate with rfl | rfl | rfl
  · exact (hlasting.agrees literal hmem).elements_eq
  · exact (hagrees literal hmem).elements_eq
  · exact ((hagrees literal hmem).trans (hlasting'.agrees literal hmem)).elements_eq

/-- A variable with a slot and a buffer of the same number. -/
def cell (index : Nat) : Variable := ⟨some ⟨index⟩, ⟨.i32, ⟨[2], [1]⟩, .host ⟨index⟩ 0⟩⟩

/-- An allocator of four slots at most. -/
def pool (slots : Array Slot) (buffers : Array HostBuffer) : Storage Unit :=
  ⟨{ maxSlots := 4, slots }, { heap := ⟨buffers⟩, contexts := [.compute], client := () }⟩

/-- The sum of two literals, each with a slot of its own. -/
def sum (retention : Retention) : GraphState Node Unit where
  graph := { entries := #[
    { node := .literal (cell 0), dependents := [⟨2⟩], retention },
    { node := .literal (cell 1), dependents := [⟨2⟩], retention },
    { node := .binary { op := .add, lhs := ⟨0⟩, rhs := ⟨1⟩ }, retention := .output }] }
  activity :=
    { storage := pool #[⟨(cell 0).value, 2, 0, true⟩, ⟨(cell 1).value, 2, 0, true⟩]
        #[⟨.i32, #[.i32 3, .i32 3], by decide⟩, ⟨.i32, #[.i32 5, .i32 5], by decide⟩] }

theorem literalVariables_sum (retention : Retention) : (sum retention).graph.literalVariables = [(⟨0⟩, cell 0), (⟨1⟩, cell 1)] := rfl

/-- The operands are allocated one after the other, and then written. -/
theorem handsOut_sum (retention : Retention) : (sum retention).activity.storage.HandsOut [cell 1, cell 0] := by
  have hneeded : (cell 0).layout.memorySize = .ok 2 := rfl
  have hformed : (cell 0).layout.Formed := rfl
  have hnew : (pool #[] #[]).HandsOut [] := .new rfl rfl
  let one := pool #[⟨(cell 0).value, 2, 0, true⟩] #[.zeros .i32 2]
  have hrun : (StorageM.allocate .i32 (cell 0).layout).runFrom (pool #[] #[]) = (.ok (cell 0), one) :=
    (hnew.supplies.pooled.runFrom_allocate hneeded).trans rfl
  have hfirst : one.HandsOut [cell 0] := hnew.allocate hformed hrun
  let two := pool #[⟨(cell 0).value, 2, 0, true⟩, ⟨(cell 1).value, 2, 0, true⟩] #[.zeros .i32 2, .zeros .i32 2]
  have hrun' : (StorageM.allocate .i32 (cell 0).layout).runFrom one = (.ok (cell 1), two) :=
    (hfirst.supplies.pooled.runFrom_allocate hneeded).trans rfl
  have hboth : two.HandsOut [cell 1, cell 0] := hfirst.allocate hformed hrun'
  refine .advance hboth rfl fun ref hlt => ?_
  obtain ⟨_ | _ | index⟩ := ref
  · exact ⟨by decide, rfl, rfl⟩
  · exact ⟨by decide, rfl, rfl⟩
  · exact absurd hlt (by simp [two, pool])

/-- The edges of the example are exact. Its sum is told once of each of its
    operands. -/
theorem exact_sum (retention : Retention) : (sum retention).graph.Exact := by
  rintro ⟨producer⟩ ⟨consumer⟩
  rcases producer with _ | _ | _ | producer <;> rcases consumer with _ | _ | _ | consumer <;>
    simp [Graph.dependents, Graph.operands, sum, Node.operands]

/-- The example has no cycles. Its literals depend on nothing. -/
theorem acyclic_sum (retention : Retention) : (sum retention).graph.Acyclic := by
  refine ⟨fun id => if id = ⟨2⟩ then 1 else 0, ?_⟩
  rintro ⟨producer⟩ consumer hmem
  rcases producer with _ | _ | _ | producer <;> simp_all [Graph.dependents, sum]

theorem retains_sum : (sum .output).graph.Retains := by
  rw [Graph.Retains, literalVariables_sum]
  exact List.forall_mem_cons.mpr ⟨rfl, List.forall_mem_singleton.mpr rfl⟩

/-- Kept, the operands are the same in both runs, and so is the sum. -/
theorem run_again_of_retains_sum : ∃ ran freed cleared again,
    run.runFrom (sum .output) = (.ok [(⟨1⟩, cell 1), (⟨2⟩, cell 3), (⟨0⟩, cell 0)], ran) ∧
      (freeOutputs [(⟨2⟩, cell 3)]).runFrom ran = (.ok (), freed) ∧ reset.runFrom freed = (.ok (), cleared) ∧
      run.runFrom cleared = (.ok [(⟨1⟩, cell 1), (⟨2⟩, cell 3), (⟨0⟩, cell 0)], again) ∧
      contents again.activity.storage.world.heap [(⟨1⟩, cell 1), (⟨2⟩, cell 3), (⟨0⟩, cell 0)] =
        [(⟨1⟩, cell 1, .ok [.i32 5, .i32 5]), (⟨2⟩, cell 3, .ok [.i32 8, .i32 8]), (⟨0⟩, cell 0, .ok [.i32 3, .i32 3])] := by
  have houtputs : (run.runFrom (sum .output)).1 = .ok [(⟨1⟩, cell 1), (⟨2⟩, cell 3), (⟨0⟩, cell 0)] := by decide +kernel
  obtain ⟨freed, cleared, again, hfree, hreset, hagain, hcontents, -⟩ :=
    run_again_of_retains ((handsOut_sum .output).supplies.of_subperm (List.Perm.swap _ _ []).subperm)
      (by simp [sum, Graph.idle, Node.idle]) (exact_sum .output) (acyclic_sum .output) retains_sum (Prod.ext houtputs rfl)
      (.refl _)
  exact ⟨_, freed, cleared, again, Prod.ext houtputs rfl, hfree, hreset, hagain, hcontents.trans (by decide +kernel)⟩

/-- By default the slots of the operands are given up in the first run: the sum
    takes that of the one, and the second run fails as it gives up that of the
    other once more. -/
theorem sum_free_fails_again : ∃ ran freed cleared again,
    run.runFrom (sum .free) = (.ok [(⟨2⟩, cell 0)], ran) ∧
      (freeOutputs [(⟨2⟩, cell 0)]).runFrom ran = (.ok (), freed) ∧ reset.runFrom freed = (.ok (), cleared) ∧
      run.runFrom cleared = (.error (.error (.allocator (.doubleFree ⟨1⟩))), again) ∧
      (cell 0).elements (sum .free).activity.storage.world.heap = .ok [.i32 3, .i32 3] ∧
      (cell 0).elements ran.activity.storage.world.heap = .ok [.i32 8, .i32 8] := by
  refine ⟨_, _, _, _, Prod.ext ?_ rfl, Prod.ext ?_ rfl, Prod.ext ?_ rfl, Prod.ext ?_ rfl, ?_, ?_⟩
  all_goals decide +kernel

end GraphM

end StagedArrays
