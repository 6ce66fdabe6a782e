import Mathlib.Data.Set.Insert
import StagedArrays.Proofs.Algebra.Attempts
import StagedArrays.Proofs.Algebra.Pointwise
import StagedArrays.Proofs.Graph.Fresh

namespace StagedArrays

open Stateful (Ends)

/-- A slot has a value as values are made, which reaches as far as the slot is
    said to. -/
structure Slot.Sound (heap : Heap) (slot : Slot) : Prop where
  sound : slot.storage.Sound heap
  capacity_eq : slot.storage.layout.memorySize = .ok slot.capacity

namespace SlotAllocator

variable {allocator : SlotAllocator} {slots : List Nat}

/-- The slots that are handed out. They tell whether a step has taken a slot or
    given one up. -/
def live (allocator : SlotAllocator) : Set Nat := {index | allocator.isLive index = true}

/-- Data that are not those of a free slot. A free slot may be filled anew at
    any time, and its data with it. -/
def Avoids (allocator : SlotAllocator) (data : ValueData) : Prop :=
  ∀ {index : Nat} {slot : Slot}, allocator.slots[index]? = some slot → slot.live = false → ¬slot.storage.data.Shares data

variable {index : Nat}

theorem Lends.live_eq (h : allocator.Lends slots) : allocator.live = {index | index ∈ slots} := Set.ext h.isLive_iff

theorem Lends.live_cons (h : allocator.Lends (index :: slots)) : allocator.live = insert index {other | other ∈ slots} := by
  rw [h.live_eq]
  exact Set.ext fun other => List.mem_cons

theorem Lends.live_sdiff (h : allocator.Lends (index :: slots)) : allocator.live \ {index} = {other | other ∈ slots} := by
  rw [h.live_cons]
  exact Set.insert_sdiff_self_of_notMem (List.nodup_cons.mp h.nodup).1

/-- A slot in use is one of those that are handed out. -/
theorem exists_lends_cons (h : index ∈ allocator.live) : ∃ slots, allocator.Lends (index :: slots) := by
  obtain ⟨slots, hlends⟩ := allocator.exists_lends
  exact ⟨slots.erase index, hlends.perm (List.perm_cons_erase ((hlends.isLive_iff index).mp h))⟩

end SlotAllocator

/-- A variable as it is given to a node: within storage that is there, and with
    neither so many elements nor a packed copy so large that they could not be
    counted. -/
structure Variable.Formed (heap : Heap) (v : Variable) : Prop where
  fits : v.value.Fits heap
  counts : ∃ count, v.value.size = .ok count
  packs : ∃ packed, v.layout.contiguous = .ok packed

/-- A packed variable has the elements that another one had. The two heaps are
    those before and after the copy. -/
structure Variable.Copies (heap : Heap) (original : Variable) (after : Heap) (copy : Variable) : Prop where
  dtype_eq : copy.dtype = original.dtype
  packed : original.layout.contiguous = .ok copy.layout
  elements : ∃ xs, original.elements heap = .ok xs ∧ copy.elements after = .ok xs

/-- A slot can be laid over with a layout that needs no more room, or its value
    with none but its own. -/
theorem Slot.Sound.withLayout_fails {heap : Heap} {slot : Slot} {layout : Layout} {needed : Nat} (h : slot.Sound heap)
    (hneeded : layout.memorySize = .ok needed) (hle : needed ≤ slot.capacity) :
    FailsOnly Failure.IsError (slot.storage.withLayout heap layout) := by
  have hrank : FailsOnly Failure.IsError (liftM (layout.ensureRank 0) : Outcome Unit) := .mapError (.any _) fun _ _ => trivial
  cases hdata : slot.storage.data with
  | constant x =>
    unfold Value.withLayout Value.make
    rw [hdata]
    dsimp only
    split
    · exact .of_error trivial
    · exact .bind hrank fun _ => .ok _
  | register id =>
    rw [Value.withLayout, hdata]
    exact .bind hrank fun _ => .ok _
  | buffer id place =>
    rw [Value.withLayout, hdata]
    exact .ok _
  | host ref offset =>
    obtain ⟨hdtype, size, hsize, hbound, hlength⟩ := h.sound.host hdata
    obtain rfl : size = slot.capacity := Except.ok.inj (hsize.symm.trans h.capacity_eq)
    have hmade : slot.storage.withLayout heap layout = .ok ⟨slot.storage.dtype, layout, .host ref offset⟩ := by
      rw [Value.withLayout, hdata, Value.make_host_eq_ok]
      exact ⟨hdtype, ⟨needed, hneeded, by omega, by omega⟩, rfl⟩
    rw [hmade]
    exact .ok _

namespace Storage

variable {σ : Type}

/-- The direct context is active, and each slot has a value as values are
    made. -/
structure Sound (storage : Storage σ) : Prop where
  active : storage.world.contexts.head? = some .compute
  slots : ∀ {index : Nat} {slot : Slot}, storage.allocator.slots[index]? = some slot → slot.Sound storage.world.heap

/-- Storage of a layout has been handed out: what a slot had that was free, or a
    new buffer. -/
structure Hands (before : Storage σ) (dtype : DType) (layout : Layout) (v : Variable) (after : Storage σ) : Prop where
  managed : v.slot.isSome = true
  dtype_eq : v.dtype = dtype
  layout_eq : v.layout = layout
  sound : v.value.Sound after.world.heap
  active : after.world.contexts.head? = some .compute
  spares : before.world.heap.Spares before.world.heap.buffers.size after.world.heap
  apart : ∀ value : Value, value.Fits before.world.heap → before.allocator.Avoids value.data →
    ¬v.value.data.Shares value.data

variable {storage : Storage σ} {layout : Layout} {size : Nat}

/-- A packed layout is given room, or refused it. Where a new buffer would take
    more bytes than any can have, the capacity overflows and all is as
    before. -/
theorem allocate_hands (h : storage.Sound) (dtype : DType) (hpacks : layout.Packs layout.extents size) :
    Ends (storage.Hands dtype layout) (fun _ _ => True)
      ((StorageM.allocate dtype layout).runFrom storage = (.error (.fault .capacityOverflow), storage) ∧
        dtype.reserve size = .error .capacityOverflow)
      ((StorageM.allocate dtype layout).runFrom storage) := by
  have hneeded := hpacks.memorySize_eq
  rw [StorageM.runFrom_allocate h.active hneeded]
  split
  · next slot index hfound =>
    obtain ⟨hslot, hfree, -, hdtype, hle⟩ := SlotAllocator.recyclable?_eq_some hfound
    have hfails := (h.slots hslot).withLayout_fails hneeded hle
    cases hview : slot.storage.withLayout storage.world.heap layout with
    | error failure =>
      cases failure with
      | error cause => exact .of_error trivial
      | fault fault => exact (hfails _ hview).elim
    | ok value =>
      obtain ⟨rfl, -⟩ := Value.eq_of_withLayout hview
      refine .of_ok ⟨rfl, hdtype, rfl, ⟨hview, hpacks.formed⟩, h.active, .refl _, fun value _ havoids => ?_⟩
      exact havoids hslot hfree
  · dsimp only
    split
    · exact .of_error trivial
    · rw [Context.allocate, Action.runFrom_onHeap]
      rcases dtype.reserve_cases size with hroom | hfull
      swap
      · rw [Direct.runFrom_allocate_of_full hneeded hfull]
        exact .of_fault ⟨rfl, hfull⟩
      rw [Direct.runFrom_allocate hneeded hroom]
      refine .of_ok ⟨rfl, rfl, rfl, (Value.packed_add hpacks).sound, h.active, storage.world.heap.spares_add _ (Nat.le_refl _), ?_⟩
      intro value hfits _ hshares
      cases hdata : value.data with
      | host ref offset =>
        rw [hdata] at hshares
        exact hfits.ref_ne hdata hshares.symm
      | constant | register | buffer =>
        rw [hdata] at hshares
        exact hshares

end Storage

namespace BinaryNode

variable {σ : Type} {activity : Activity σ} {like input lhs rhs held : Variable} {packed : Layout}

/-- How fresh storage is provided that is like that of a variable: it is given,
    or refused for a cause; or there is no room for so much, and no slot has
    changed hands. -/
structure Provides (activity : Activity σ) (like : Variable) (given : Variable → Activity σ → Prop)
    (run : Except (Failure GraphError) Variable × Activity σ) : Prop where
  ok : ∀ v, run.1 = .ok v → given v run.2
  fault : ∀ fault, run.1 = .error (.fault fault) → fault = .capacityOverflow ∧
    like.dtype.reserve like.layout.extents.prod = .error .capacityOverflow ∧
    run.2.storage.allocator.live = activity.storage.allocator.live

theorem Provides.of_error {given : Variable → Activity σ → Prop} {cause : GraphError} {after : Activity σ} :
    Provides activity like given (.error (.error cause), after) := ⟨nofun, nofun⟩

theorem Provides.of_ok {given : Variable → Activity σ → Prop} {v : Variable} {after : Activity σ} (h : given v after) :
    Provides activity like given (.ok v, after) := ⟨fun _ heq => Except.ok.inj heq ▸ h, nofun⟩

/-- What is said of a variable that is provided may be weakened. What is said of
    the failures stays. -/
theorem Provides.mono {given given' : Variable → Activity σ → Prop}
    {run : Except (Failure GraphError) Variable × Activity σ} (h : Provides activity like given run)
    (himplies : ∀ v after, given v after → given' v after) : Provides activity like given' run :=
  ⟨fun v hok => himplies v _ (h.ok v hok), h.fault⟩

/-- Fresh storage is filled or given back. Which of the two it is depends on the
    action that fills it. -/
theorem fresh_hands (fill : Value → Action σ Unit) (filledWith : Variable → World σ → Prop) (h : activity.storage.Sound)
    (hpacked : like.layout.contiguous = .ok packed)
    (hfill : ∀ v storage size, activity.storage.Hands like.dtype packed v storage → v.layout.Packs like.layout.extents size →
      Ends (fun _ => filledWith v) (fun _ _ => True) False ((fill v.value).runFrom storage.world)) :
    Provides activity like
      (fun v after => v.slot.isSome = true ∧ v.dtype = like.dtype ∧ v.layout = packed ∧ filledWith v after.storage.world)
      ((fresh like fill).runFrom activity) := by
  obtain ⟨size, hpacks⟩ := Layout.packed_eq_ok hpacked
  have hallocate := Storage.allocate_hands h like.dtype hpacks.self
  rw [Layout.size_eq_prod hpacks.increments_eq] at hallocate
  rw [fresh, Stateful.runFrom_bind, Stateful.runFrom_liftM, hpacked]
  dsimp only [liftM_fault_ok]
  rw [Stateful.runFrom_bind, ActivityM.allocate, ActivityM.runFrom_noted]
  generalize (StorageM.allocate like.dtype packed).runFrom activity.storage = run at hallocate ⊢
  obtain ⟨(cause | fault) | v, storage⟩ := run
  · exact .of_error
  · obtain ⟨hrun, hfull⟩ := hallocate.fault fault rfl
    cases hrun
    refine ⟨?_, fun _ hsame => ⟨(Failure.fault.inj (Except.error.inj hsame)).symm, hfull, rfl⟩⟩
    rintro v ⟨⟩
  · have hhands := hallocate.ok v rfl
    have hfilled := hfill v storage size hhands (by rwa [hhands.layout_eq])
    dsimp only
    rw [filled, Stateful.runFrom_bind, Stateful.runFrom_attempt, ActivityM.runFrom_onWorld]
    dsimp only
    generalize (fill v.value).runFrom storage.world = run at hfilled ⊢
    obtain ⟨(cause | fault) | u, world⟩ := run
    · dsimp only [Except.mapError, Failure.map]
      have hfreed (after : Activity σ) := ActivityM.relabels_free v after
      rw [Stateful.runFrom_bind]
      generalize hrun : (ActivityM.free v).runFrom _ = run
      obtain ⟨(cause | fault) | u, after⟩ := run
      · exact .of_error
      · exact ((hfreed _).fault fault (congrArg Prod.fst hrun)).elim
      · exact .of_error
    · exact (hfilled.fault fault rfl).elim
    · exact .of_ok ⟨hhands.managed, hhands.dtype_eq, hhands.layout_eq, hfilled.ok u rfl⟩

/-- An operand is copied, or not stored at all. The latter happens where there
    is no slot, or no room for its elements. -/
theorem hold_copies (h : activity.storage.Sound) (hinput : input.Formed activity.storage.world.heap)
    (havoids : activity.storage.allocator.Avoids input.value.data) :
    Provides activity input
      (fun copy after => copy.slot.isSome = true ∧ input.Copies activity.storage.world.heap after.storage.world.heap copy)
      ((hold input).runFrom activity) := by
  obtain ⟨packed, hpacked⟩ := hinput.packs
  have hends := fresh_hands (Elementwise.copyInto · input.value) (fun copy world => copy.layout = packed →
    ∃ xs, input.elements activity.storage.world.heap = .ok xs ∧ copy.elements world.heap = .ok xs) h hpacked ?_
  · rw [hold_eq]
    refine hends.mono ?_
    rintro copy after ⟨hslot, hdtype, rfl, helements⟩
    exact ⟨hslot, hdtype, hpacked, helements rfl⟩
  · intro copy storage size hhands hpacks
    have hextents : input.layout.extents = copy.layout.extents := hpacks.extents_eq.symm
    have hfits := hinput.fits.spared hhands.spares
    have hserves : storage.world.Serves [copy.value, input.value] :=
      ⟨hhands.active, by simp [hhands.sound, hfits.sound]⟩
    have hcopy := Elementwise.copyInto_ends hserves (by simp) (by simp) hextents hpacks.self
    refine ⟨fun u hok hlayout => ?_, fun _ _ => trivial, hcopy.fault⟩
    obtain ⟨xs, hxs, hcopied⟩ := Elementwise.exists_mapM_of_copyInto hserves (by simp) hfits (by simp) hpacks.self
      (hhands.apart input.value hinput.fits havoids) (Prod.ext hok rfl)
    refine ⟨xs, ?_, hcopied⟩
    rw [Variable.elements, hextents, ← hxs]
    exact mapM_congr fun coordinates _ => (Value.peek_congr hinput.fits.sound (hinput.fits.alike hhands.spares) coordinates).symm

/-- Operands that can be counted are compared. -/
theorem checkOperands_fails (hlhs : ∃ count, lhs.value.size = .ok count) (hrhs : ∃ count, rhs.value.size = .ok count) :
    FailsOnly Failure.IsError (checkOperands lhs rhs) := by
  obtain ⟨count, hcount⟩ := hlhs
  obtain ⟨count', hcount'⟩ := hrhs
  unfold checkOperands
  by_cases hdtype : lhs.dtype = rhs.dtype
  · by_cases hextents : rhs.layout.rank ≠ 0 ∧ rhs.layout.extents ≠ lhs.layout.extents
    · simp only [hdtype, ne_eq, not_true, if_false]
      rw [if_pos hextents, hcount, hcount']
      exact .of_error trivial
    · simp only [hdtype, ne_eq, not_true, if_false]
      rw [if_neg hextents]
      exact .ok _
  · simp only [ne_eq, hdtype, not_false_iff, if_true]
    exact .of_error trivial

/-- A result is computed, or there is an error. The error is one of the
    operation or of the allocation. -/
theorem compute_hands (op : BinaryOp) (h : activity.storage.Sound)
    (hlhs : lhs.Formed activity.storage.world.heap) (hrhs : rhs.Formed activity.storage.world.heap) :
    Provides activity lhs (fun result _ => result.slot.isSome = true) ((compute op lhs rhs).runFrom activity) := by
  rw [runFrom_compute]
  have hfails := checkOperands_fails hlhs.counts hrhs.counts
  cases hchecked : checkOperands lhs rhs with
  | error failure =>
    cases failure with
    | error cause => exact .of_error
    | fault fault => exact (hfails _ hchecked).elim
  | ok u =>
    obtain ⟨hdtype, hshape⟩ := checkOperands_eq_ok_iff.mp hchecked
    obtain ⟨packed, hpacked⟩ := hlhs.packs
    refine (fresh_hands _ (fun _ _ => True) h hpacked fun output storage size hhands hpacks => ?_).mono
      fun _ _ => And.left
    have hextents : lhs.layout.extents = output.layout.extents := hpacks.extents_eq.symm
    have hserves : storage.world.Serves [output.value, lhs.value, rhs.value] :=
      ⟨hhands.active, by simp [hhands.sound, (hlhs.fits.spared hhands.spares).sound, (hrhs.fits.spared hhands.spares).sound]⟩
    refine ((Elementwise.copyInto_ends hserves (by simp) (by simp) hextents hpacks.self).mono (fun _ _ => id)
      fun _ _ _ => trivial).bind fun _ between hbetween => ?_
    exact (Elementwise.assignBinary_ends op hbetween (by simp) (by simp) (hdtype.symm.trans hhands.dtype_eq.symm)
      (hshape.imp_right fun heq => heq.trans hextents) hpacks.self).mono (fun _ _ _ => trivial) fun _ _ _ => trivial

/-- To give up the slot of a held operand does not change what came out. The
    result is looked at before the slot is given up. -/
theorem outcome_releasing {slots : List Nat} {action : ActivityM σ Variable}
    (h : Ends (fun result after => after.storage.allocator.Lends (result.slots ++ (held.slots ++ slots)))
      (fun _ after => after.storage.allocator.Lends (held.slots ++ slots)) True (action.runFrom activity)) :
    ((releasing held action).runFrom activity).1 = (action.runFrom activity).1 := by
  rw [releasing, Stateful.runFrom_bind, Stateful.runFrom_attempt]
  generalize action.runFrom activity = run at h ⊢
  obtain ⟨(cause | fault) | result, after⟩ := run
  · obtain ⟨allocator, hrun, -⟩ := ActivityM.free_lends (h.error cause rfl)
    dsimp only
    rw [Stateful.runFrom_bind_of_ok hrun]
    rfl
  · rfl
  · have hresult : after.storage.allocator.Lends (held.slots ++ (result.slots ++ slots)) := by
      refine (h.ok result rfl).perm ?_
      rw [← List.append_assoc, ← List.append_assoc]
      exact List.perm_append_comm.append_right slots
    obtain ⟨allocator, hrun, -⟩ := ActivityM.free_lends hresult
    dsimp only
    rw [Stateful.runFrom_bind_of_ok hrun]
    rfl

/-- Where an action faults, the slot of a held operand is not given up. A fault
    passes over all that would have followed. -/
theorem runFrom_releasing_of_fault (held : Variable) {action : ActivityM σ Variable} {fault : Fault} {after : Activity σ}
    (h : action.runFrom activity = (.error (.fault fault), after)) :
    (releasing held action).runFrom activity = (.error (.fault fault), after) := by
  rw [releasing, Stateful.runFrom_bind, Stateful.runFrom_attempt, h]
  rfl

/-- A value that a node does not take: none, one without a producer or with one
    that stands for no operand, or a second one for the operand that is held. -/
inductive Unexpected (node : BinaryNode) : Option NodeId → Option Variable → Prop where
  | noSource (input : Option Variable) : Unexpected node none input
  | noInput (source : Option NodeId) : Unexpected node source none
  | noSide {producer : NodeId} {operand : Variable} (hside : node.sideOf? producer = none) :
    Unexpected node (some producer) (some operand)
  | sameSide {producer : NodeId} {side : Side} {held operand : Variable} (hside : node.sideOf? producer = some side)
      (hheld : node.held = some (side, held)) : Unexpected node (some producer) (some operand)

/-- A value that a node takes as an operand. It comes from the producer on one
    of the sides, and that side is still missing. -/
structure Takes (node : BinaryNode) (source : Option NodeId) (input : Option Variable) (side : Side) (operand : Variable) :
    Prop where
  source : ∃ producer, source = some producer ∧ node.sideOf? producer = some side
  input_eq : input = some operand

section Ending

variable (node : BinaryNode) (source : Option NodeId) (input : Option Variable) (activity : Activity σ)
  (run : Except (Failure GraphError) (Option Variable) × NodeState BinaryNode σ)

/-- The result of two operands has been computed, into a slot that was free. The
    slot of the one held is free. -/
structure Gives (side : Side) (held operand result : Variable) (freed taken : SlotId) : Prop where
  takes : node.Takes source input side operand
  held_eq : node.held = some (side.other, held)
  freed_eq : held.slot = some freed
  computed : ((compute node.op (arranged side held operand).1 (arranged side held operand).2).runFrom activity).1 = .ok result
  outcome_eq : run.1 = .ok (some result)
  taken_eq : result.slot = some taken
  taken_notMem : taken.index ∉ activity.storage.allocator.live
  live_eq : run.2.activity.storage.allocator.live = insert taken.index (activity.storage.allocator.live \ {freed.index})
  node_eq : run.2.node = { node with held := none }

/-- The first operand is held as a packed copy, in a slot that was free. The
    node keeps the copy and not the operand itself. -/
structure Keeps (side : Side) (operand copy : Variable) (taken : SlotId) : Prop where
  takes : node.Takes source input side operand
  held_eq : node.held = none
  outcome_eq : run.1 = .ok none
  copies : operand.Copies activity.storage.world.heap run.2.activity.storage.world.heap copy
  taken_eq : copy.slot = some taken
  taken_notMem : taken.index ∉ activity.storage.allocator.live
  live_eq : run.2.activity.storage.allocator.live = insert taken.index activity.storage.allocator.live
  node_eq : run.2.node = { node with held := some (side, copy) }

/-- A value has not been taken, and nothing has changed; or a first operand
    could not be stored. -/
structure Refuses (cause : GraphError) : Prop where
  outcome_eq : run.1 = .error (.error cause)
  live_eq : run.2.activity.storage.allocator.live = activity.storage.allocator.live
  node_eq : run.2.node = node
  reason : (node.Unexpected source input ∧ cause = .unexpectedInput node.name ∧ run.2.activity = activity) ∨
    ∃ side operand, node.Takes source input side operand ∧ node.held = none ∧
      ((hold operand).runFrom activity).1 = .error (.error cause)

/-- The result of two operands could not be computed. The slot of the one held
    is free. -/
structure Loses (side : Side) (held operand : Variable) (freed : SlotId) (cause : GraphError) : Prop where
  takes : node.Takes source input side operand
  held_eq : node.held = some (side.other, held)
  freed_eq : held.slot = some freed
  computed : ((compute node.op (arranged side held operand).1 (arranged side held operand).2).runFrom activity).1 =
    .error (.error cause)
  outcome_eq : run.1 = .error (.error cause)
  live_eq : run.2.activity.storage.allocator.live = activity.storage.allocator.live \ {freed.index}
  node_eq : run.2.node = { node with held := none }

/-- What has to be copied, the first operand or the left one of two, takes more
    bytes than storage can have. The capacity overflows, and no slot has changed
    hands. -/
structure Overflows (side : Side) (operand copied : Variable) : Prop where
  takes : node.Takes source input side operand
  copied_eq : node.held = none ∧ copied = operand ∨
    ∃ held, node.held = some (side.other, held) ∧ copied = (arranged side held operand).1
  full : copied.dtype.reserve copied.layout.extents.prod = .error .capacityOverflow
  outcome_eq : run.1 = .error (.fault .capacityOverflow)
  live_eq : run.2.activity.storage.allocator.live = activity.storage.allocator.live
  node_eq : run.2.node = { node with held := none }

/-- How a step of a node can end. There are five ways, and just one of them
    describes any given step. -/
inductive Ending where
  | gives
  | keeps
  | refuses
  | loses
  | overflows
  deriving DecidableEq

/-- The ending that an outcome and what is held tell. Nothing else about the
    step has to be known for it. -/
def Ending.told : Ending :=
  match run.1 with
  | .ok (some _) => .gives
  | .ok none => .keeps
  | .error (.fault _) => .overflows
  | .error (.error _) => if node.held.isSome && run.2.node.held.isNone then .loses else .refuses

/-- Whether an ending describes a step. What has come out, what is held and
    which slots are in use all belong to it. -/
def Ending.Describes : Ending → Prop
  | gives => ∃ side held operand result freed taken, Gives node source input activity run side held operand result freed taken
  | keeps => ∃ side operand copy taken, Keeps node source input activity run side operand copy taken
  | refuses => ∃ cause, Refuses node source input activity run cause
  | loses => ∃ side held operand freed cause, Loses node source input activity run side held operand freed cause
  | overflows => ∃ side operand copied, Overflows node source input activity run side operand copied

end Ending

/-- What a node works with. What is held has a slot that is in use, and what
    comes in lies in none that is not. -/
structure Ready (node : BinaryNode) (input : Option Variable) (storage : Storage σ) : Prop where
  sound : storage.Sound
  held : ∀ side held, node.held = some (side, held) →
    held.Formed storage.world.heap ∧ ∃ id, held.slot = some id ∧ id.index ∈ storage.allocator.live
  input : ∀ operand, input = some operand →
    operand.Formed storage.world.heap ∧ storage.allocator.Avoids operand.value.data

variable {node : BinaryNode} {source : Option NodeId} {input : Option Variable}

/-- A node refuses an input only if it did not await it, and the error names the
    node. -/
theorem unexpected_of_refuse {cause : GraphError} (h : node.reaction source input = .refuse cause) :
    node.Unexpected source input ∧ cause = .unexpectedInput node.name := by
  unfold reaction at h
  split at h
  · next producer operand =>
    split at h
    · next hside =>
      cases h
      exact ⟨.noSide hside, rfl⟩
    · cases h
    · next side heldSide held hside hheld =>
      split at h
      · next hsame =>
        cases h
        exact ⟨.sameSide hside (hsame ▸ hheld), rfl⟩
      · cases h
  · next hnot =>
    cases h
    cases source with
    | none => exact ⟨.noSource input, rfl⟩
    | some producer =>
      cases input with
      | none => exact ⟨.noInput _, rfl⟩
      | some operand => exact (hnot producer operand rfl rfl).elim

theorem slots_eq_of_slot_eq {v : Variable} {id : SlotId} (h : v.slot = some id) : v.slots = [id.index] := by
  rw [Variable.slots, h]
  rfl

/-- A first operand is kept or refused, or is too large to be kept. In the last
    case there is a fault and no error. -/
theorem ends_of_hold {side : Side} {operand : Variable} (h : Ready node input activity.storage)
    (htakes : node.Takes source input side operand) (hheld : node.held = none) :
    ∃ ending : Ending, ending.Describes node source input activity
      (match (hold operand).runFrom activity with
      | (.ok held, after) => (.ok none, ⟨{ node with held := some (side, held) }, after⟩)
      | (.error failure, after) => (.error failure, ⟨node, after⟩)) := by
  obtain ⟨slots, hlends⟩ := activity.storage.allocator.exists_lends
  obtain ⟨hformed, havoids⟩ := h.input operand htakes.input_eq
  have hcopies := hold_copies h.sound hformed havoids
  have hholds := hold_lends operand hlends
  rcases hrun : (hold operand).runFrom activity with ⟨(cause | fault) | copy, after⟩
  all_goals rw [hrun] at hcopies hholds
  · have hlive := (hholds.error cause rfl).live_eq.trans hlends.live_eq.symm
    exact ⟨.refuses, cause, rfl, hlive, rfl, .inr ⟨side, operand, htakes, hheld, congrArg Prod.fst hrun⟩⟩
  · obtain ⟨rfl, hfull, hlive⟩ := hcopies.fault fault rfl
    have hnode : node = { node with held := none } := by rw [← hheld]
    exact ⟨.overflows, side, operand, operand, htakes, .inl ⟨hheld, rfl⟩, hfull, rfl, hlive, hnode⟩
  · obtain ⟨hmanaged, hcopies⟩ := hcopies.ok copy rfl
    obtain ⟨taken, htaken⟩ := Option.isSome_iff_exists.mp hmanaged
    have hafter := hholds.ok copy rfl
    rw [slots_eq_of_slot_eq htaken] at hafter
    refine ⟨.keeps, side, operand, copy, taken, htakes, hheld, rfl, hcopies, htaken, ?_, ?_, rfl⟩
    · rw [hlends.live_eq]
      exact (List.nodup_cons.mp hafter.nodup).1
    · rw [hlends.live_eq]
      exact hafter.live_cons

/-- Two operands give a result or none, and that of them which was held is
    gone. -/
theorem ends_of_combine {side : Side} {held operand : Variable} (h : Ready node input activity.storage)
    (htakes : node.Takes source input side operand) (hheld : node.held = some (side.other, held)) :
    ∃ ending : Ending, ending.Describes node source input activity
      (((combine node.op side held operand).runFrom activity).1.map some,
        ⟨{ node with held := none }, ((combine node.op side held operand).runFrom activity).2⟩) := by
  obtain ⟨hformed, freed, hfreed, hlive⟩ := h.held _ held hheld
  obtain ⟨slots, hlends⟩ := SlotAllocator.exists_lends_cons hlive
  have hheldSlots := slots_eq_of_slot_eq hfreed
  have hlends' : activity.storage.allocator.Lends (held.slots ++ slots) := by rwa [hheldSlots]
  obtain ⟨hlhs, hrhs⟩ : (arranged side held operand).1.Formed activity.storage.world.heap ∧
      (arranged side held operand).2.Formed activity.storage.world.heap :=
    of_arranged (fun _ => Variable.Formed activity.storage.world.heap) rfl hformed (h.input operand htakes.input_eq).1
  have hhands := compute_hands node.op h.sound hlhs hrhs
  have hcomputes := compute_lends node.op (arranged side held operand).1 (arranged side held operand).2 hlends'
  have hcombines := combine_lends node.op side operand hlends'
  have houtcome := outcome_releasing (hcomputes.mono (fun _ _ => id) fun _ _ => id)
  rw [← combine_eq] at houtcome
  rcases hrun : (compute node.op (arranged side held operand).1 (arranged side held operand).2).runFrom activity with
    ⟨(cause | fault) | result, between⟩
  all_goals rw [hrun] at hhands hcomputes houtcome
  · have hafter := hcombines.error cause houtcome
    refine ⟨.loses, side, held, operand, freed, cause, htakes, hheld, hfreed, congrArg Prod.fst hrun, ?_, ?_, rfl⟩
    · rw [houtcome]
      rfl
    · exact hafter.live_eq.trans hlends.live_sdiff.symm
  · obtain ⟨rfl, hfull, hlive'⟩ := hhands.fault fault rfl
    have hcombined := runFrom_releasing_of_fault held hrun
    rw [← combine_eq] at hcombined
    rw [hcombined]
    exact ⟨.overflows, side, operand, _, htakes, .inr ⟨held, hheld, rfl⟩, hfull, rfl, hlive', rfl⟩
  · obtain ⟨taken, htaken⟩ := Option.isSome_iff_exists.mp (hhands.ok result rfl)
    have hcomputed := hcomputes.ok result rfl
    have hafter := hcombines.ok result houtcome
    rw [slots_eq_of_slot_eq htaken] at hcomputed hafter
    refine ⟨.gives, side, held, operand, result, freed, taken, htakes, hheld, hfreed, congrArg Prod.fst hrun, ?_, htaken, ?_, ?_,
      rfl⟩
    · rw [houtcome]
      rfl
    · rw [hlends'.live_eq]
      exact (List.nodup_cons.mp hcomputed.nodup).1
    · rw [hlends.live_sdiff]
      exact hafter.live_cons

/-- What a node that is ready for its input does is described by one of the
    endings. Each reaction of a node is followed to its end: an input is
    refused, kept, or combined with what is held, and the last two ask for
    storage that may be refused or overflow. -/
theorem exists_ending (source : Option NodeId) (h : Ready node input activity.storage) : ∃ ending : Ending,
    ending.Describes node source input activity ((receive source input).runFrom (⟨node, activity⟩ : NodeState BinaryNode σ)) := by
  have hsame : node.reaction source input = (Node.binary node).reaction source input := rfl
  rw [runFrom_receive, hsame]
  cases hreaction : (Node.binary node).reaction source input with
  | refuse cause =>
    obtain ⟨hunexpected, hcause⟩ := unexpected_of_refuse hreaction
    exact ⟨.refuses, cause, rfl, rfl, rfl, .inl ⟨hunexpected, hcause, rfl⟩⟩
  | give value => cases (Node.eq_literal_of_give hreaction).1
  | hold found side operand =>
    obtain ⟨hfound, hheld, hinput, hsource⟩ := Node.eq_binary_of_hold hreaction
    cases hfound
    exact ends_of_hold h ⟨hsource, hinput⟩ hheld
  | combine found side held operand =>
    obtain ⟨hfound, ⟨heldSide, hheld, hne⟩, hinput, hsource⟩ := Node.eq_binary_of_combine hreaction
    cases hfound
    have hother : heldSide = side.other := by cases heldSide <;> cases side <;> first | rfl | exact (hne rfl).elim
    exact ends_of_combine h ⟨hsource, hinput⟩ (hother ▸ hheld)

/-- How a step ended can be told from its outcome and from what is held. So no
    two endings describe the same step. -/
theorem Ending.Describes.eq_told {ending : Ending} {run : Except (Failure GraphError) (Option Variable) × NodeState BinaryNode σ}
    (h : ending.Describes node source input activity run) : ending = .told node run := by
  cases ending with
  | gives =>
    obtain ⟨side, held, operand, result, freed, taken, hgives⟩ := h
    rw [told, hgives.outcome_eq]
  | keeps =>
    obtain ⟨side, operand, copy, taken, hkeeps⟩ := h
    rw [told, hkeeps.outcome_eq]
  | refuses =>
    obtain ⟨cause, hrefuses⟩ := h
    rw [told, hrefuses.outcome_eq, hrefuses.node_eq]
    cases node.held <;> rfl
  | loses =>
    obtain ⟨side, held, operand, freed, cause, hloses⟩ := h
    rw [told, hloses.outcome_eq, hloses.node_eq, hloses.held_eq]
    rfl
  | overflows =>
    obtain ⟨side, operand, copied, hoverflows⟩ := h
    rw [told, hoverflows.outcome_eq]

/-- A step of a node accounts for every slot: it gives the result of two
    operands and gives up the slot of the one held, or keeps a copy of the first
    of them, or refuses a value and changes no slot, or has no result and gives
    up the slot of the operand held, or is stopped because nothing can have the
    bytes that a copy needs, and changes no slot. A slot is taken for a result
    or a copy, and for nothing else. -/
theorem existsUnique_ending (source : Option NodeId) (h : Ready node input activity.storage) : ∃! ending : Ending,
    ending.Describes node source input activity ((receive source input).runFrom (⟨node, activity⟩ : NodeState BinaryNode σ)) := by
  obtain ⟨ending, hends⟩ := exists_ending source h
  exact ⟨ending, hends, fun other hother => hother.eq_told.trans hends.eq_told.symm⟩

/-- A node at the beginning of its work, and a vector of 2 ^ 61 elements, all of
    which are one. -/
def doubling : BinaryNode where
  op := .add
  lhs := ⟨0⟩
  rhs := ⟨0⟩

def repeated : Variable := ⟨none, ⟨.i32, ⟨[2 ^ 61], [0]⟩, .host ⟨0⟩ 0⟩⟩

def single : Activity Unit where
  storage := ⟨{ maxSlots := 64 }, { heap := ⟨#[⟨.i32, #[.i32 3], by decide⟩]⟩, contexts := [.compute], client := () }⟩

/-- Such a vector can be counted and its packed layout be made, and yet its copy
    is neither kept nor refused, and no result is there. -/
theorem receive_overflows_repeated : Ready doubling (some repeated) single.storage ∧
    ∀ ending : Ending, ending.Describes doubling (some ⟨0⟩) (some repeated) single
      ((receive (some ⟨0⟩) (some repeated)).runFrom (⟨doubling, single⟩ : NodeState BinaryNode Unit)) → ending = .overflows := by
  constructor
  · refine ⟨⟨rfl, nofun⟩, nofun, ?_⟩
    rintro operand hoperand
    cases hoperand
    refine ⟨⟨⟨⟨rfl, rfl⟩, fun ref offset hdata => ?_⟩, ⟨2 ^ 61, rfl⟩, ⟨_, rfl⟩⟩, nofun⟩
    cases hdata
    decide
  · intro ending hends
    rw [hends.eq_told]
    decide +kernel

/-- A quotient whose dividend is held, and a divisor with a zero at the end. All
    elements but the last can be divided. -/
def quotient : BinaryNode where
  op := .div
  lhs := ⟨0⟩
  rhs := ⟨1⟩
  held := some (.lhs, ⟨some ⟨0⟩, ⟨.i32, ⟨[2], [1]⟩, .host ⟨0⟩ 0⟩⟩)

def divisor : Variable := ⟨none, ⟨.i32, ⟨[2], [1]⟩, .host ⟨1⟩ 0⟩⟩

/-- Storage for the quotient in the example. The dividend has the first slot,
    and there is room for a result. -/
def dividing : Activity Unit where
  storage :=
    { allocator := ⟨64, #[⟨⟨.i32, ⟨[2], [1]⟩, .host ⟨0⟩ 0⟩, 2, 0, true⟩]⟩
      world :=
        { heap := ⟨#[⟨.i32, #[.i32 7, .i32 1], by decide⟩, ⟨.i32, #[.i32 1, .i32 0], by decide⟩]⟩
          contexts := [.compute]
          client := () } }

/-- The second division fails, and the slots of the dividend and of the result
    are free. -/
theorem existsUnique_ending_quotient : Ready quotient (some divisor) dividing.storage ∧
    Ending.loses.Describes quotient (some ⟨1⟩) (some divisor) dividing
      ((receive (some ⟨1⟩) (some divisor)).runFrom (⟨quotient, dividing⟩ : NodeState BinaryNode Unit)) := by
  have hslots {index : Nat} {slot : Slot} (hslot : dividing.storage.allocator.slots[index]? = some slot) :
      slot = ⟨⟨.i32, ⟨[2], [1]⟩, .host ⟨0⟩ 0⟩, 2, 0, true⟩ := by
    cases index with
    | zero => exact (Option.some.inj hslot).symm
    | succ index => cases hslot
  have hready : Ready quotient (some divisor) dividing.storage := by
    refine ⟨⟨rfl, fun hslot => ?_⟩, ?_, ?_⟩
    · cases hslots hslot
      exact ⟨⟨rfl, rfl⟩, rfl⟩
    · rintro side held hheld
      cases hheld
      exact ⟨⟨⟨⟨rfl, rfl⟩, fun ref offset hdata => by cases hdata; decide⟩, ⟨2, rfl⟩, ⟨_, rfl⟩⟩, ⟨0⟩, rfl, rfl⟩
    · rintro operand hoperand
      cases hoperand
      refine ⟨⟨⟨⟨rfl, rfl⟩, fun ref offset hdata => by cases hdata; decide⟩, ⟨2, rfl⟩, ⟨_, rfl⟩⟩, fun hslot hfree => ?_⟩
      cases hslots hslot
      cases hfree
  refine ⟨hready, ?_⟩
  obtain ⟨ending, hends, -⟩ := existsUnique_ending (some ⟨1⟩) hready
  have htold : Ending.told quotient
      ((receive (some ⟨1⟩) (some divisor)).runFrom (⟨quotient, dividing⟩ : NodeState BinaryNode Unit)) = .loses := by
    decide +kernel
  rwa [hends.eq_told, htold] at hends

end BinaryNode

end StagedArrays
