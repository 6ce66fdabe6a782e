import StagedArrays.Proofs.Algebra.Filling
import StagedArrays.Proofs.Graph.Lending

namespace StagedArrays

open Stateful (Ends Moves)

/-- A slot apart from whether it is handed out. What is left of it never changes
    once the slot is there. -/
def Slot.blank (slot : Slot) : Slot := { slot with live := false }

theorem Slot.storage_eq_of_blank_eq {slot other : Slot} (h : other.blank = slot.blank) : other.storage = slot.storage := by
  have hstorage := congrArg Slot.storage h
  exact hstorage

namespace SlotAllocator

variable {allocator other : SlotAllocator} {index : Nat} {slot : Slot}

/-- The slots apart from which of them are handed out. Two runs are compared by
    these. -/
def statics (allocator : SlotAllocator) : List Slot := allocator.slots.toList.map Slot.blank

theorem getElem?_statics (allocator : SlotAllocator) (index : Nat) :
    allocator.statics[index]? = allocator.slots[index]?.map Slot.blank := by
  rw [statics, List.getElem?_map, Array.getElem?_toList]

theorem length_statics (allocator : SlotAllocator) : allocator.statics.length = allocator.totalSlots := by
  simp [statics, totalSlots]

/-- Where two allocators have the same slots, each slot has its like. The two
    differ in whether they are handed out. -/
theorem exists_blank_eq (h : other.statics = allocator.statics) (hslot : other.slots[index]? = some slot) :
    ∃ old, allocator.slots[index]? = some old ∧ old.blank = slot.blank := by
  have hget := congrArg (·[index]?) h
  simp only [getElem?_statics, hslot, Option.map_some] at hget
  exact Option.map_eq_some_iff.mp hget.symm

/-- Whether a slot is in use is not part of what it is. -/
theorem statics_setLive (allocator : SlotAllocator) (index : Nat) (live : Bool) :
    (allocator.setLive index live).statics = allocator.statics := by
  refine List.ext_getElem? fun other => ?_
  rw [getElem?_statics, getElem?_statics, getElem?_setLive]
  split
  · rw [Option.map_map]
    rfl
  · rfl

end SlotAllocator

/-- A slot whose storage is a whole buffer of the host, none of the first
    ones. -/
structure Slot.Hosted (base : Nat) (heap : Heap) (slot : Slot) : Prop where
  scope_eq : slot.scope = 0
  backed : ∃ ref, slot.storage.data = .host ref 0 ∧ base ≤ ref.index ∧ ref.index < heap.buffers.size ∧
    (heap.get ref).dtype = slot.storage.dtype ∧ (heap.get ref).length = slot.capacity

/-- The buffer of a slot serves every layout that is no larger. The value made
    of it begins where the buffer does. -/
theorem Slot.Hosted.make_eq {base needed : Nat} {heap : Heap} {slot : Slot} {layout : Layout} (h : slot.Hosted base heap)
    (hneeded : layout.memorySize = .ok needed) (hle : needed ≤ slot.capacity) :
    Value.make heap slot.storage.dtype layout slot.storage.data = .ok ⟨slot.storage.dtype, layout, slot.storage.data⟩ := by
  obtain ⟨ref, hdata, -, -, hdtype, hlength⟩ := h.backed
  have hbound := Layout.memorySize_lt_bound hneeded
  rw [hdata, Value.make_host_eq_ok]
  exact ⟨hdtype, ⟨needed, hneeded, by omega, by omega⟩, rfl⟩

/-- An allocator whose slots are buffers of the host, each a different one. The
    first `base` buffers belong to others. -/
structure Storage.Pooled {σ : Type} (base : Nat) (storage : Storage σ) : Prop where
  active : storage.world.contexts.head? = some .compute
  base_le : base ≤ storage.world.heap.buffers.size
  hosted : ∀ {index : Nat} {slot : Slot}, storage.allocator.slots[index]? = some slot → slot.Hosted base storage.world.heap
  apart : ∀ {index other : Nat} {slot slot' : Slot}, storage.allocator.slots[index]? = some slot →
    storage.allocator.slots[other]? = some slot' → slot.storage.data = slot'.storage.data → index = other

namespace Storage

variable {σ : Type} {base : Nat} {storage : Storage σ} {dtype : DType} {layout : Layout} {needed : Nat}

/-- No slot of a pool is stale, since all of them belong to the host. So fresh
    storage always goes into a slot of its own. -/
theorem Pooled.stale?_eq_none (h : storage.Pooled base) : storage.allocator.stale? 0 = none := by
  cases hstale : storage.allocator.stale? 0 with
  | none => rfl
  | some index =>
    obtain ⟨slot, hslot, -, hscope⟩ := SlotAllocator.stale?_eq_some hstale
    exact (hscope (h.hosted hslot).scope_eq).elim

/-- What happens to storage while slots in use are left alone: no slot gives its
    storage up, and a buffer changes only if a slot that is not in use has
    it. -/
structure Respects (before after : Storage σ) : Prop where
  slots : ∀ {index : Nat} {slot : Slot}, before.allocator.slots[index]? = some slot →
    ∃ slot', after.allocator.slots[index]? = some slot' ∧ slot'.storage = slot.storage
  size_le : before.world.heap.buffers.size ≤ after.world.heap.buffers.size
  untouched : ∀ ref : HostRef, ref.index < before.world.heap.buffers.size →
    (∀ (index : Nat) (slot : Slot), before.allocator.slots[index]? = some slot → slot.storage.data = .host ref 0 →
      slot.live = true) →
    after.world.heap.get ref = before.world.heap.get ref

/-- A variable as a graph passes it on: storage of the first buffers, or all of
    the slot it has. -/
structure Carries (base : Nat) (storage : Storage σ) (v : Variable) : Prop where
  sound : v.value.Sound storage.world.heap
  unmanaged : v.slot = none → ∀ ref offset, v.value.data = .host ref offset → ref.index < base
  managed : ∀ id, v.slot = some id → ∃ slot ref, storage.allocator.slots[id.index]? = some slot ∧
    slot.storage.data = .host ref 0 ∧ v.value.data = .host ref 0

/-- A free slot that fits is handed out as it is, and otherwise a new one is
    made, until there are as many as there may be. The storage of a new slot may
    be more than there is room for. -/
theorem Pooled.runFrom_allocate (h : storage.Pooled base) (hneeded : layout.memorySize = .ok needed) :
    (StorageM.allocate dtype layout).runFrom storage =
      match storage.allocator.recyclable? 0 dtype needed with
      | some (slot, index) => (.ok ⟨some ⟨index⟩, ⟨dtype, layout, slot.storage.data⟩⟩,
          { storage with allocator := storage.allocator.setLive index true })
      | none =>
        if storage.allocator.maxSlots ≤ storage.allocator.totalSlots then
          (.error (.error (.exhausted storage.allocator.maxSlots)), storage)
        else
          match dtype.reserve needed with
          | .error fault => (.error (.fault fault), storage)
          | .ok () =>
            let value : Value := ⟨dtype, layout, .host ⟨storage.world.heap.buffers.size⟩ 0⟩
            (.ok ⟨some ⟨storage.allocator.slots.size⟩, value⟩,
              ⟨{ storage.allocator with slots := storage.allocator.slots.push ⟨value, needed, 0, true⟩ },
                { storage.world with heap := (storage.world.heap.add (.zeros dtype needed)).2 }⟩) := by
  rw [StorageM.runFrom_allocate h.active hneeded]
  have hscope : storage.world.scopeOf .compute = 0 := rfl
  rw [hscope]
  cases hfound : storage.allocator.recyclable? 0 dtype needed with
  | some found =>
    obtain ⟨slot, index⟩ := found
    obtain ⟨hslot, -, -, hdtype, hle⟩ := SlotAllocator.recyclable?_eq_some hfound
    have hvalue : slot.storage.withLayout storage.world.heap layout = .ok ⟨dtype, layout, slot.storage.data⟩ := by
      rw [← hdtype]
      exact (h.hosted hslot).make_eq hneeded hle
    dsimp only
    rw [hvalue]
    rfl
  | none =>
    dsimp only
    rw [h.stale?_eq_none, Context.allocate, Action.runFrom_onHeap]
    simp only [Option.isNone_none, true_and]
    refine ite_congr rfl (fun _ => rfl) fun _ => ?_
    rcases dtype.reserve_cases needed with hroom | hroom
    · rw [hroom, Direct.runFrom_allocate hneeded hroom]
      rfl
    · rw [hroom, Direct.runFrom_allocate_of_full hneeded hroom]
      rfl

variable {before after : Storage σ} {v : Variable} {ref : HostRef} {offset : Nat}

/-- A slot in use has a buffer that no other slot has. A variable and a slot
    with the same data are found together. -/
theorem Carries.live_of_data_eq (h : Carries base storage v) (hpooled : storage.Pooled base)
    (hlive : ∀ id, v.slot = some id → storage.allocator.isLive id.index = true) (hdata : v.value.data = .host ref offset)
    {index : Nat} {slot : Slot} (hslot : storage.allocator.slots[index]? = some slot)
    (hsame : slot.storage.data = .host ref 0) : slot.live = true := by
  cases hv : v.slot with
  | none =>
    obtain ⟨other, hother, hle, -⟩ := (hpooled.hosted hslot).backed
    have hlt := h.unmanaged hv ref offset hdata
    rw [hsame] at hother
    cases hother
    omega
  | some id =>
    obtain ⟨slot', ref', hslot', hdata', hv'⟩ := h.managed id hv
    rw [hv'] at hdata
    cases hdata
    obtain rfl := hpooled.apart hslot hslot' (hsame.trans hdata'.symm)
    obtain ⟨found, hfound, hlive⟩ := SlotAllocator.isLive_eq_true.mp (hlive id hv)
    cases hslot.symm.trans hfound
    exact hlive

/-- The storage of a variable that is passed on is one of the buffers there
    are. -/
theorem Carries.lt_size (h : Carries base storage v) (hpooled : storage.Pooled base) (hdata : v.value.data = .host ref offset) :
    ref.index < storage.world.heap.buffers.size := by
  cases hv : v.slot with
  | none => exact Nat.lt_of_lt_of_le (h.unmanaged hv ref offset hdata) hpooled.base_le
  | some id =>
    obtain ⟨slot, ref', hslot, hdata', hv'⟩ := h.managed id hv
    obtain ⟨other, hother, -, hlt, -⟩ := (hpooled.hosted hslot).backed
    rw [hv'] at hdata
    cases hdata
    rw [hdata'] at hother
    cases hother
    exact hlt

/-- A variable in use means the same after what leaves slots in use alone. The
    buffers of free slots may have changed. -/
theorem Respects.alike (h : before.Respects after) (hpooled : before.Pooled base) (hv : Carries base before v)
    (hlive : ∀ id, v.slot = some id → before.allocator.isLive id.index = true) :
    v.value.Alike before.world.heap after.world.heap := by
  refine .of_get_eq fun ref offset hdata => h.untouched ref (hv.lt_size hpooled hdata) fun index slot hslot hsame => ?_
  exact hv.live_of_data_eq hpooled hlive hdata hslot hsame

/-- A variable in use is still carried after whatever leaves slots in use
    alone. -/
theorem Respects.carries (h : before.Respects after) (hpooled : before.Pooled base) (hv : Carries base before v)
    (hlive : ∀ id, v.slot = some id → before.allocator.isLive id.index = true) : Carries base after v := by
  refine ⟨hv.sound.of_alike (h.alike hpooled hv hlive), hv.unmanaged, fun id hid => ?_⟩
  obtain ⟨slot, ref, hslot, hdata, hvalue⟩ := hv.managed id hid
  obtain ⟨slot', hslot', hsame⟩ := h.slots hslot
  exact ⟨slot', ref, hslot', by rw [hsame, hdata], hvalue⟩

/-- Room has been taken for a value: a slot that was not in use with the buffer
    it had, or a new one with a new buffer. -/
structure Takes (base : Nat) (before : Storage σ) (size : Nat) (v : Variable) (index : Nat) (ref : HostRef)
    (after : Storage σ) : Prop where
  slot_eq : v.slot = some ⟨index⟩
  pooled : after.Pooled base
  packed : v.value.Packed after.world.heap ref size
  slot : ∃ slot, after.allocator.slots[index]? = some slot ∧ slot.storage.data = .host ref 0
  slots : ∀ {other : Nat} {slot : Slot}, before.allocator.slots[other]? = some slot →
    ∃ slot', after.allocator.slots[other]? = some slot' ∧ slot'.storage = slot.storage
  size_le : before.world.heap.buffers.size ≤ after.world.heap.buffers.size
  others : ∀ other : HostRef, other.index < before.world.heap.buffers.size →
    after.world.heap.get other = before.world.heap.get other
  free : before.world.heap.buffers.size ≤ ref.index ∨ ∃ slot, before.allocator.slots[index]? = some slot ∧
    slot.storage.data = .host ref 0 ∧ slot.live = false
  maxSlots_eq : after.allocator.maxSlots = before.allocator.maxSlots
  totalSlots_le : after.allocator.totalSlots ≤ before.allocator.totalSlots + 1

/-- Handing slots out or taking them back does not change the pool. -/
theorem Pooled.of_statics_eq (h : storage.Pooled base) (hstatics : after.allocator.statics = storage.allocator.statics)
    (hworld : after.world = storage.world) : after.Pooled base := by
  refine ⟨hworld ▸ h.active, hworld ▸ h.base_le, fun hslot => ?_, fun hslot hslot' hdata => ?_⟩
  · obtain ⟨old, hold, hblank⟩ := SlotAllocator.exists_blank_eq hstatics hslot
    obtain ⟨hscope, ref, hbacked⟩ := h.hosted hold
    obtain ⟨hstorage, hcapacity, hsame⟩ : old.storage = _ ∧ old.capacity = _ ∧ old.scope = _ := by
      simpa [Slot.blank] using hblank
    rw [hworld]
    exact ⟨hsame.symm.trans hscope, ref, by rwa [← hstorage, ← hcapacity]⟩
  · obtain ⟨old, hold, hblank⟩ := SlotAllocator.exists_blank_eq hstatics hslot
    obtain ⟨old', hold', hblank'⟩ := SlotAllocator.exists_blank_eq hstatics hslot'
    refine h.apart hold hold' ?_
    rw [Slot.storage_eq_of_blank_eq hblank, Slot.storage_eq_of_blank_eq hblank', hdata]

/-- So the storage behind a slot is the same on both sides. It is what later
    variables in the slot are made of. -/
theorem exists_storage_eq (hstatics : after.allocator.statics = storage.allocator.statics) {index : Nat} {slot : Slot}
    (hslot : storage.allocator.slots[index]? = some slot) :
    ∃ slot', after.allocator.slots[index]? = some slot' ∧ slot'.storage = slot.storage := by
  obtain ⟨slot', hslot', hblank⟩ := SlotAllocator.exists_blank_eq hstatics.symm hslot
  exact ⟨slot', hslot', Slot.storage_eq_of_blank_eq hblank⟩

/-- A slot that is free and fits is taken with the buffer it has. The pool stays
    a pool, since this buffer is not handed to a second slot. -/
theorem Pooled.takes_recycled (h : storage.Pooled base) {size index : Nat} {slot : Slot} (hpacks : layout.Packs layout.extents size)
    (hfound : storage.allocator.recyclable? 0 dtype size = some (slot, index)) :
    ∃ ref, Takes base storage size ⟨some ⟨index⟩, ⟨dtype, layout, slot.storage.data⟩⟩ index ref
      { storage with allocator := storage.allocator.setLive index true } := by
  obtain ⟨hslot, hfree, -, hdtype, hle⟩ := SlotAllocator.recyclable?_eq_some hfound
  obtain ⟨-, ref, hdata, hbase, hlt, hsame, hlength⟩ := h.hosted hslot
  let after : Storage σ := { storage with allocator := storage.allocator.setLive index true }
  have hstatics : after.allocator.statics = storage.allocator.statics := storage.allocator.statics_setLive index true
  obtain ⟨slot', hslot', hstorage⟩ := exists_storage_eq hstatics hslot
  refine ⟨ref, rfl, h.of_statics_eq hstatics rfl, ⟨hdata, hpacks, hlt, hsame.trans hdtype, hlength ▸ hle⟩, ⟨slot', hslot', ?_⟩,
    fun hother => exists_storage_eq hstatics hother, Nat.le_refl _, fun _ _ => rfl, .inr ⟨slot, hslot, hdata, hfree⟩, rfl, ?_⟩
  · rw [hstorage, hdata]
  · rw [SlotAllocator.totalSlots_setLive]
    exact Nat.le_succ _

/-- One more slot, with a new buffer, goes with the others. No other slot shares
    the buffer. -/
theorem Pooled.push (h : storage.Pooled base) (dtype : DType) (layout : Layout) (size : Nat) :
    let value : Value := ⟨dtype, layout, .host ⟨storage.world.heap.buffers.size⟩ 0⟩
    (⟨{ storage.allocator with slots := storage.allocator.slots.push ⟨value, size, 0, true⟩ },
      { storage.world with heap := (storage.world.heap.add (.zeros dtype size)).2 }⟩ : Storage σ).Pooled base := by
  intro value
  let slot : Slot := ⟨value, size, 0, true⟩
  let heap := (storage.world.heap.add (.zeros dtype size)).2
  have hsize : heap.buffers.size = storage.world.heap.buffers.size + 1 := Heap.size_add _ _
  have hnew : heap.get ⟨storage.world.heap.buffers.size⟩ = .zeros dtype size := storage.world.heap.get_add_self _
  have hslots (other : Nat) : (storage.allocator.slots.push slot)[other]? =
      if other = storage.allocator.slots.size then some slot else storage.allocator.slots[other]? := Array.getElem?_push
  have hlast : slot.Hosted base heap := by
    refine ⟨rfl, _, rfl, h.base_le, by rw [hsize]; exact Nat.lt_succ_self _, ?_, ?_⟩
    · rw [hnew]
      rfl
    · rw [hnew, HostBuffer.length_zeros]
  have hkept {index : Nat} {old : Slot} (hold : storage.allocator.slots[index]? = some old) : old.Hosted base heap := by
    obtain ⟨hscope, ref, hdata, hbase, hlt, hdtype, hlength⟩ := h.hosted hold
    have hget : heap.get ref = storage.world.heap.get ref := storage.world.heap.get_add_of_lt _ hlt
    exact ⟨hscope, ref, hdata, hbase, by omega, by rwa [hget], by rwa [hget]⟩
  have hapart {index : Nat} {old : Slot} (hold : storage.allocator.slots[index]? = some old) :
      old.storage.data ≠ value.data := by
    obtain ⟨-, ref, hdata, -, hlt, -⟩ := h.hosted hold
    intro hsame
    rw [hdata] at hsame
    cases hsame
    exact Nat.lt_irrefl _ hlt
  refine ⟨h.active, by rw [hsize]; exact Nat.le_succ_of_le h.base_le, fun {index found} hslot => ?_,
    fun {index other found found'} hslot hslot' hdata => ?_⟩
  · rw [hslots] at hslot
    split at hslot
    · cases hslot
      exact hlast
    · exact hkept hslot
  · rw [hslots] at hslot hslot'
    split at hslot <;> split at hslot'
    · next heq heq' => exact heq.trans heq'.symm
    · cases hslot
      exact (hapart hslot' hdata.symm).elim
    · cases hslot'
      exact (hapart hslot hdata).elim
    · exact h.apart hslot hslot' hdata

/-- It leaves the others alone. -/
theorem respects_push (storage : Storage σ) (slot : Slot) (buffer : HostBuffer) :
    storage.Respects ⟨{ storage.allocator with slots := storage.allocator.slots.push slot },
      { storage.world with heap := (storage.world.heap.add buffer).2 }⟩ := by
  refine ⟨fun {index old} hold => ⟨old, ?_, rfl⟩, ?_, fun ref hlt _ => storage.world.heap.get_add_of_lt buffer hlt⟩
  · rw [Array.getElem?_push, if_neg (Nat.ne_of_lt (Array.getElem?_eq_some_iff.mp hold).1)]
    exact hold
  · exact Nat.le_of_lt (Nat.lt_of_lt_of_eq (Nat.lt_succ_self _) (Heap.size_add _ _).symm)

/-- A new slot is taken with a new buffer. The buffer is none that a slot of the
    pool has. -/
theorem Pooled.takes_fresh (h : storage.Pooled base) (dtype : DType) {size : Nat} (hpacks : layout.Packs layout.extents size) :
    let value : Value := ⟨dtype, layout, .host ⟨storage.world.heap.buffers.size⟩ 0⟩
    Takes base storage size ⟨some ⟨storage.allocator.slots.size⟩, value⟩ storage.allocator.slots.size
      ⟨storage.world.heap.buffers.size⟩
      ⟨{ storage.allocator with slots := storage.allocator.slots.push ⟨value, size, 0, true⟩ },
        { storage.world with heap := (storage.world.heap.add (.zeros dtype size)).2 }⟩ := by
  intro value
  have hnew : (storage.world.heap.add (.zeros dtype size)).2.get ⟨storage.world.heap.buffers.size⟩ = .zeros dtype size :=
    storage.world.heap.get_add_self _
  have hrespects := storage.respects_push ⟨value, size, 0, true⟩ (.zeros dtype size)
  refine ⟨rfl, h.push dtype layout size, ?_, ⟨⟨value, size, 0, true⟩, Array.getElem?_push_size, rfl⟩, hrespects.slots,
    hrespects.size_le, fun ref hlt => storage.world.heap.get_add_of_lt _ hlt, .inl (Nat.le_refl _), rfl, ?_⟩
  · refine ⟨rfl, hpacks, ?_, ?_, ?_⟩
    · exact Nat.lt_of_lt_of_eq (Nat.lt_succ_self _) (Heap.size_add _ _).symm
    · rw [hnew]
      rfl
    · exact Nat.le_of_eq (by rw [hnew, HostBuffer.length_zeros])
  · simp [SlotAllocator.totalSlots]

/-- A place for a packed value is found unless all slots there may be are made
    and none fits. A new one may be more than there is room for. -/
theorem Pooled.allocate_ends (h : storage.Pooled base) (dtype : DType) {size : Nat} (hpacks : layout.Packs layout.extents size) :
    Ends (fun v after => v.dtype = dtype ∧ v.layout = layout ∧ ∃ index ref, Takes base storage size v index ref after)
      (fun cause after => cause = .exhausted storage.allocator.maxSlots ∧ after = storage ∧
        storage.allocator.maxSlots ≤ storage.allocator.totalSlots)
      (dtype.reserve size = .error .capacityOverflow) ((StorageM.allocate dtype layout).runFrom storage) := by
  rw [h.runFrom_allocate hpacks.memorySize_eq]
  split
  · next slot index hfound =>
    obtain ⟨ref, htakes⟩ := h.takes_recycled hpacks hfound
    exact .of_ok ⟨rfl, rfl, index, ref, htakes⟩
  · split
    · next hle => exact .of_error ⟨rfl, rfl, hle⟩
    · rcases dtype.reserve_cases size with hroom | hroom
      · rw [hroom]
        exact .of_ok ⟨rfl, rfl, _, _, h.takes_fresh dtype hpacks⟩
      · rw [hroom]
        exact .of_fault rfl

theorem Respects.refl (storage : Storage σ) : storage.Respects storage :=
  ⟨fun hslot => ⟨_, hslot, rfl⟩, Nat.le_refl _, fun _ _ _ => rfl⟩

/-- Slots are handed out or taken back, and nothing else. The heap in particular
    is left alone. -/
structure Relabels (before after : Storage σ) : Prop where
  statics_eq : after.allocator.statics = before.allocator.statics
  maxSlots_eq : after.allocator.maxSlots = before.allocator.maxSlots
  world_eq : after.world = before.world

instance : IsPreorder (Storage σ) Relabels where
  refl _ := ⟨rfl, rfl, rfl⟩
  trans _ _ _ h h' := ⟨h'.statics_eq.trans h.statics_eq, h'.maxSlots_eq.trans h.maxSlots_eq, h'.world_eq.trans h.world_eq⟩

theorem Relabels.pooled (h : before.Relabels after) (hpooled : before.Pooled base) : after.Pooled base :=
  hpooled.of_statics_eq h.statics_eq h.world_eq

theorem Relabels.totalSlots_eq (h : before.Relabels after) : after.allocator.totalSlots = before.allocator.totalSlots := by
  rw [← SlotAllocator.length_statics, h.statics_eq, SlotAllocator.length_statics]

/-- Handing out and taking back changes nothing about a variable that is passed
    on. -/
theorem Relabels.carries (h : before.Relabels after) (hv : before.Carries base v) : after.Carries base v := by
  refine ⟨h.world_eq ▸ hv.sound, hv.unmanaged, fun id hid => ?_⟩
  obtain ⟨slot, ref, hslot, hdata, hvalue⟩ := hv.managed id hid
  obtain ⟨slot', hslot', hsame⟩ := exists_storage_eq h.statics_eq hslot
  exact ⟨slot', ref, hslot', by rw [hsame, hdata], hvalue⟩

/-- After a step that leaves slots in use alone, slots may still be handed out
    or taken back. -/
theorem Respects.relabel {final : Storage σ} (h : before.Respects after) (hrelabels : after.Relabels final) :
    before.Respects final := by
  refine ⟨fun hslot => ?_, hrelabels.world_eq ▸ h.size_le, hrelabels.world_eq ▸ h.untouched⟩
  obtain ⟨slot, hslot, hsame⟩ := h.slots hslot
  obtain ⟨slot', hslot', hsame'⟩ := exists_storage_eq hrelabels.statics_eq hslot
  exact ⟨slot', hslot', hsame'.trans hsame⟩

/-- Taking room and filling it leaves slots in use alone. The room comes from a
    free slot or from a new one. -/
theorem Takes.respects {size index : Nat} {heap : Heap} (h : Takes base before size v index ref after)
    (htouches : after.world.heap.Touches ref heap) :
    before.Respects { after with world := { after.world with heap } } := by
  refine ⟨h.slots, htouches.size_eq ▸ h.size_le, fun other hlt hlive => ?_⟩
  have hne : other ≠ ref := by
    rintro rfl
    rcases h.free with hnew | ⟨slot, hslot, hdata, hfree⟩
    · omega
    · rw [hlive index slot hslot hdata] at hfree
      cases hfree
  exact (htouches.others other hne).trans (h.others other hlt)

/-- Writing into the storage that was just taken keeps the pool a pool. -/
theorem Takes.pooled_touched {size index : Nat} {heap : Heap} (h : Takes base before size v index ref after)
    (htouches : after.world.heap.Touches ref heap) :
    ({ after with world := { after.world with heap } } : Storage σ).Pooled base := by
  refine ⟨h.pooled.active, htouches.size_eq ▸ h.pooled.base_le, fun hslot => ?_, h.pooled.apart⟩
  obtain ⟨hscope, other, hdata, hbase, hlt, hdtype, hlength⟩ := h.pooled.hosted hslot
  have hlt' : other.index < heap.buffers.size := htouches.size_eq ▸ hlt
  refine ⟨hscope, other, hdata, hbase, hlt', ?_⟩
  by_cases hother : other = ref
  · subst hother
    exact ⟨htouches.dtype_eq.trans hdtype, htouches.length_eq.trans hlength⟩
  · rw [show heap.get other = _ from htouches.others other hother]
    exact ⟨hdtype, hlength⟩

/-- What was taken is carried, also when it has been filled since. -/
theorem Takes.carries {size index : Nat} {heap : Heap} (h : Takes base before size v index ref after)
    (htouches : after.world.heap.Touches ref heap) :
    Carries base { after with world := { after.world with heap } } v := by
  refine ⟨(h.packed.of_touches htouches).sound, fun hnone => ?_, fun id hid => ?_⟩
  · rw [h.slot_eq] at hnone
    cases hnone
  · rw [h.slot_eq] at hid
    cases hid
    obtain ⟨slot, hslot, hdata⟩ := h.slot
    exact ⟨slot, ref, hslot, hdata, h.packed.data_eq⟩

/-- The room taken is apart from all variables in use. It may have belonged to
    one that has been given back. -/
theorem Takes.apart {size index : Nat} {w : Variable} (h : Takes base before size v index ref after)
    (hpooled : before.Pooled base) (hw : Carries base before w)
    (hlive : ∀ id, w.slot = some id → before.allocator.isLive id.index = true) :
    ∀ other offset, w.value.data = .host other offset → other ≠ ref := by
  rintro other offset hdata rfl
  have hlt := hw.lt_size hpooled hdata
  rcases h.free with hnew | ⟨slot, hslot, hsame, hfree⟩
  · omega
  · rw [hw.live_of_data_eq hpooled hlive hdata hslot hsame] at hfree
    cases hfree

/-- Taking room changes no variable in use. -/
theorem Takes.alike {size index : Nat} {w : Variable} (h : Takes base before size v index ref after)
    (hpooled : before.Pooled base) (hw : Carries base before w) :
    w.value.Alike before.world.heap after.world.heap :=
  .of_get_eq fun other _ hdata => h.others other (hw.lt_size hpooled hdata)

end Storage

namespace Action

variable {σ : Type}

/-- An action fills packed storage with given elements, if there are such.
    Otherwise it fails as the elements do, and may have filled a part. -/
def Fills (fill : Action σ Unit) (world : World σ) (destination : Value) (ref : HostRef)
    (elements : Outcome (List Numeric)) : Prop :=
  ∃ heap, fill.runFrom world = (elements.map fun _ => (), { world with heap }) ∧ world.heap.Touches ref heap ∧
    ∀ xs, elements = .ok xs → world.heap.Overwrites ref xs heap ∧
      (Layout.rowMajor destination.layout.extents).mapM (destination.peek heap) = .ok xs

end Action

end StagedArrays
