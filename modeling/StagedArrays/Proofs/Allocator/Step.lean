import StagedArrays.Allocator
import StagedArrays.Proofs.Context
import StagedArrays.Proofs.Storage.Direct

namespace StagedArrays

namespace World

variable {σ : Type}

/-- The emitter of a name. A name that was never handed out stands for one that
    has recorded nothing. -/
def emitterAt (world : World σ) (id : EmitterId) : Emitter := world.emitters[id.index]?.getD default

/-- The number by which a context tells its storage apart. That of the host is
    zero and never changes. -/
def scopeOf (world : World σ) : Context → Nat
  | .compute => 0
  | .emitter id => (world.emitterAt id).scope

/-- To put back an emitter as it was changes nothing, also where there is
    none. -/
theorem set_emitterAt (world : World σ) (id : EmitterId) :
    world.emitters.setIfInBounds id.index (world.emitterAt id) = world.emitters := by
  refine Array.ext_getElem? fun index => ?_
  rw [Array.getElem?_setIfInBounds]
  split
  · next heq =>
    subst heq
    split
    · next hlt => simp [emitterAt, hlt]
    · next hge => simp [Nat.le_of_not_lt hge]
  · rfl

end World

namespace Context

variable {σ : Type}

/-- Asking a context for its scope changes nothing. -/
theorem runFrom_storageScope (context : Context) (world : World σ) :
    context.storageScope.runFrom world = (.ok (world.scopeOf context), world) := by
  cases context with
  | compute => rfl
  | emitter id =>
    simp only [storageScope, Action.runFrom_onEmitter, Stateful.runFrom_bind, Stateful.runFrom_get,
      Stateful.runFrom_pure]
    exact congrArg _ (congrArg (World.mk world.heap · world.contexts world.client) (world.set_emitterAt id))

end Context

namespace SlotAllocator

variable {allocator : SlotAllocator} {scope needed index : Nat} {dtype : DType} {slot : Slot}

/-- What is handed out again is free, bears the number of the scope, and is
    large enough. -/
theorem recyclable?_eq_some (h : allocator.recyclable? scope dtype needed = some (slot, index)) :
    allocator.slots[index]? = some slot ∧ slot.live = false ∧ slot.scope = scope ∧
      slot.storage.dtype = dtype ∧ needed ≤ slot.capacity := by
  have hmem := List.mem_zipIdx_iff_getElem?.mp (List.mem_of_find?_eq_some h)
  have hfits := List.find?_some h
  simp only [Bool.and_eq_true, Bool.not_eq_true', beq_iff_eq, decide_eq_true_eq] at hfits
  obtain ⟨⟨⟨hlive, hscope⟩, hdtype⟩, hneeded⟩ := hfits
  exact ⟨by simpa using hmem, hlive, hscope, hdtype, hneeded⟩

/-- What gives way to fresh storage is free, and bears another number. A slot in
    use never gives way. -/
theorem stale?_eq_some (h : allocator.stale? scope = some index) :
    ∃ slot, allocator.slots[index]? = some slot ∧ slot.live = false ∧ slot.scope ≠ scope := by
  obtain ⟨hlt, hstale, -⟩ := Array.findIdx?_eq_some_iff_getElem.mp h
  simp only [Bool.and_eq_true, Bool.not_eq_true', bne_iff_ne] at hstale
  exact ⟨allocator.slots[index], Array.getElem?_eq_getElem hlt, hstale.1, hstale.2⟩

/-- Whether a slot is in use is changed for one slot only. The others are found
    as before. -/
theorem getElem?_setLive (allocator : SlotAllocator) (index other : Nat) (live : Bool) :
    (allocator.setLive index live).slots[other]? =
      if index = other then allocator.slots[other]?.map ({ · with live }) else allocator.slots[other]? := by
  simp only [setLive, Array.getElem?_modify]

theorem place_fst (slot : Slot) (stale : Option Nat) :
    (allocator.place slot stale).1 = ⟨stale.getD allocator.slots.size⟩ := by cases stale <;> rfl

/-- Fresh storage is found in its slot, and every other slot is as before. This
    one lemma covers both places it may go to. -/
theorem getElem?_place {stale : Option Nat} (hstale : ∀ index ∈ stale, index < allocator.slots.size) (slot : Slot)
    (other : Nat) : (allocator.place slot stale).2.slots[other]? =
      if stale.getD allocator.slots.size = other then some slot else allocator.slots[other]? := by
  cases stale with
  | none =>
    rw [Option.getD_none, place, Array.getElem?_push]
    exact if_congr eq_comm rfl rfl
  | some index =>
    rw [Option.getD_some, place, Array.getElem?_setIfInBounds]
    split
    · rw [if_pos (hstale index rfl)]
    · rfl

theorem lt_of_stale?_eq_some (h : allocator.stale? scope = some index) : index < allocator.slots.size := by
  obtain ⟨slot, hslot, -⟩ := stale?_eq_some h
  exact (Array.getElem?_eq_some_iff.mp hslot).1

@[simp]
theorem totalSlots_setLive (live : Bool) : (allocator.setLive index live).totalSlots = allocator.totalSlots := by
  simp [totalSlots, setLive]

theorem totalSlots_place (slot : Slot) (stale : Option Nat) : (allocator.place slot stale).2.totalSlots =
    if stale.isNone then allocator.totalSlots + 1 else allocator.totalSlots := by
  cases stale <;> simp [totalSlots, place]

@[simp]
theorem maxSlots_place (slot : Slot) (stale : Option Nat) :
    (allocator.place slot stale).2.maxSlots = allocator.maxSlots := by
  cases stale <;> rfl

/-- Fresh storage goes where there was none, or none in use. No variable in use
    loses its slot by it. -/
theorem free_of_place {stale : Option Nat}
    (hstale : ∀ index ∈ stale, ∃ slot, allocator.slots[index]? = some slot ∧ slot.live = false)
    (h : allocator.slots[stale.getD allocator.slots.size]? = some slot) : slot.live = false := by
  cases stale with
  | none => simp at h
  | some index =>
    obtain ⟨old, hold, hfree⟩ := hstale index rfl
    cases hold.symm.trans h
    exact hfree

/-- How the number of live slots changes with one of them. The old state of the
    slot is taken off and the new one added. -/
theorem countP_setIfInBounds {slot : Slot} (hslot : allocator.slots[index]? = some slot) (next : Slot) :
    (allocator.slots.setIfInBounds index next).countP (·.live) =
      (allocator.liveSlots - if slot.live then 1 else 0) + if next.live then 1 else 0 := by
  obtain ⟨hlt, hget⟩ := Array.getElem?_eq_some_iff.mp hslot
  rw [Array.setIfInBounds_def, dif_pos hlt, Array.countP_set, hget]
  rfl

/-- Marking a slot changes its mark and nothing else, and no other slot. -/
theorem slots_setLive (hslot : allocator.slots[index]? = some slot) (live : Bool) :
    (allocator.setLive index live).slots = allocator.slots.setIfInBounds index { slot with live } := by
  obtain ⟨hlt, -⟩ := Array.getElem?_eq_some_iff.mp hslot
  refine Array.ext_getElem? fun other => ?_
  rw [getElem?_setLive, Array.getElem?_setIfInBounds]
  split
  · next heq =>
    subst heq
    rw [hslot, Option.map_some]
  · rfl

/-- A slot that is handed out again counts once more. -/
theorem liveSlots_setLive_true (hslot : allocator.slots[index]? = some slot) (hfree : slot.live = false) :
    (allocator.setLive index true).liveSlots = allocator.liveSlots + 1 := by
  rw [liveSlots, slots_setLive hslot, countP_setIfInBounds hslot]
  simp [hfree]

/-- A slot that is taken back no longer counts. -/
theorem liveSlots_setLive_false (hslot : allocator.slots[index]? = some slot) (hlive : slot.live = true) :
    (allocator.setLive index false).liveSlots + 1 = allocator.liveSlots := by
  have hpos : 0 < allocator.liveSlots :=
    Array.countP_pos_iff.mpr ⟨slot, Array.mem_of_getElem? hslot, hlive⟩
  rw [liveSlots, slots_setLive hslot, countP_setIfInBounds hslot]
  simp only [hlive, if_true, Bool.false_eq_true, if_false]
  omega

/-- Fresh storage counts once, in a new slot or in one that was free. What was
    free has not been counted. -/
theorem liveSlots_place {stale : Option Nat} (hlive : slot.live = true)
    (hstale : ∀ index ∈ stale, ∃ old, allocator.slots[index]? = some old ∧ old.live = false) :
    (allocator.place slot stale).2.liveSlots = allocator.liveSlots + 1 := by
  cases stale with
  | none => simp [liveSlots, place, hlive]
  | some index =>
    obtain ⟨old, hold, hfree⟩ := hstale index rfl
    rw [liveSlots, place, countP_setIfInBounds hold]
    simp [hfree, hlive]

/-- Only a variable whose slot is handed out can be given back, or one without a
    slot. -/
theorem release_eq_ok {v : Variable} {after : SlotAllocator} : allocator.release v = .ok after ↔
    v.slot = none ∧ after = allocator ∨ ∃ id slot, v.slot = some id ∧ allocator.slots[id.index]? = some slot ∧
      slot.live = true ∧ after = allocator.setLive id.index false := by
  constructor
  · intro h
    unfold release at h
    split at h
    · next hslot => exact .inl ⟨hslot, (Except.ok.inj h).symm⟩
    · next id hslot =>
      split at h
      · cases h
      · next slot hfound =>
        split at h
        · next hlive => exact .inr ⟨id, slot, hslot, hfound, hlive, (Except.ok.inj h).symm⟩
        · cases h
  · rintro (⟨hslot, rfl⟩ | ⟨id, slot, hslot, hfound, hlive, rfl⟩)
    · simp [release, hslot]
    · simp [release, hslot, hfound, hlive]

end SlotAllocator

namespace StorageM

variable {σ : Type} {dtype : DType} {layout : Layout} {storage after : Storage σ} {v : Variable} {context : Context}
  {needed : Nat}

/-- What is done to the world of an allocator leaves its slots alone. Errors are
    marked as errors of values. -/
@[simp]
theorem runFrom_onWorld {α : Type} (action : Action σ α) (storage : Storage σ) :
    (onWorld action).runFrom storage =
      ((action.runFrom storage.world).1.mapError (Failure.map .value),
        ⟨storage.allocator, (action.runFrom storage.world).2⟩) := by
  cases storage
  simp [onWorld]

@[simp]
theorem runFrom_setAllocator (allocator : SlotAllocator) (storage : Storage σ) :
    (setAllocator allocator : StorageM σ Unit).runFrom storage = (.ok (), { storage with allocator }) := rfl

/-- Up to the choice of a slot, an allocation only looks. The choice is made
    with the size and the scope that it found. -/
theorem runFrom_allocate (hcontext : storage.world.contexts.head? = some context)
    (hneeded : layout.memorySize = .ok needed) :
    (allocate dtype layout).runFrom storage =
      match storage.allocator.recyclable? (storage.world.scopeOf context) dtype needed with
      | some (slot, index) =>
        ((slot.storage.withLayout storage.world.heap layout).mapError (Failure.map .value) |>.map (⟨some ⟨index⟩, ·⟩),
          if (slot.storage.withLayout storage.world.heap layout).isOk then
            { storage with allocator := storage.allocator.setLive index true } else storage)
      | none =>
        let stale := storage.allocator.stale? (storage.world.scopeOf context)
        if stale.isNone ∧ storage.allocator.maxSlots ≤ storage.allocator.totalSlots then
          (.error (.error (.exhausted storage.allocator.maxSlots)), storage)
        else
          match (context.allocate dtype layout).runFrom storage.world with
          | (.ok value, world) =>
            let placed := storage.allocator.place ⟨value, needed, storage.world.scopeOf context, true⟩ stale
            (.ok ⟨some placed.1, value⟩, ⟨placed.2, world⟩)
          | (.error failure, world) => (.error (failure.map .value), { storage with world }) := by
  have hactive := Action.runFrom_activeContext hcontext
  unfold allocate
  simp only [Stateful.runFrom_bind, runFrom_onWorld, hactive, Context.runFrom_storageScope, Except.mapError,
    Stateful.runFrom_liftM, hneeded, liftM_fault_ok, Stateful.runFrom_get]
  cases storage.allocator.recyclable? (storage.world.scopeOf context) dtype needed with
  | some found =>
    obtain ⟨slot, index⟩ := found
    simp only [Stateful.runFrom_bind, runFrom_onWorld, Action.runFrom_onHeap, Stateful.runFrom_get, Stateful.runFrom_liftM, liftM_self]
    cases slot.storage.withLayout storage.world.heap layout with
    | error failure => rfl
    | ok value => rfl
  | none =>
    dsimp only
    split
    · rfl
    · simp only [Stateful.runFrom_bind, runFrom_onWorld]
      cases (context.allocate dtype layout).runFrom storage.world with
      | mk outcome world =>
        cases outcome with
        | error failure => rfl
        | ok value => rfl

end StorageM

end StagedArrays
