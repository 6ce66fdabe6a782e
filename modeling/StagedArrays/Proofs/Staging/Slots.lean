import StagedArrays.Proofs.Related
import StagedArrays.Proofs.Staging.Bindings

namespace StagedArrays

open Stateful (Joint)

namespace SlotAllocator

variable {allocator : SlotAllocator} {scope : Nat}

theorem stale?_eq_none (h : ∀ slot ∈ allocator.slots.toList, slot.scope = scope) : allocator.stale? scope = none := by
  refine Array.findIdx?_eq_none_iff.mpr fun slot hmem => ?_
  rw [h slot (Array.mem_toList_iff.mpr hmem), bne_self_eq_false, Bool.and_false]

theorem toList_setLive (index : Nat) (live : Bool) :
    (allocator.setLive index live).slots.toList = allocator.slots.toList.modify index fun slot => { slot with live } := by
  simp [setLive]

end SlotAllocator

/-- Freeing succeeds if the allocator releases the slot, and changes nothing
    else. -/
theorem StorageM.runFrom_free_eq_ok {σ : Type} {storage after : Storage σ} {v : Variable} {u : Unit} :
    (free v).runFrom storage = (.ok u, after) ↔
      ∃ allocator, storage.allocator.release v = .ok allocator ∧ after = { storage with allocator } := by
  rw [free, Stateful.runFrom_bind, Stateful.runFrom_get]
  dsimp only
  rw [Stateful.runFrom_bind, Stateful.runFrom_liftM]
  cases storage.allocator.release v with
  | error cause => exact ⟨nofun, fun ⟨_, h, _⟩ => nomatch h⟩
  | ok allocator =>
    simp only [liftM_error_ok, runFrom_setAllocator, Prod.mk.injEq, Except.ok.injEq, exists_eq_left', true_and]
    exact eq_comm

namespace Staging

variable {σ τ : Type} {c : Staging σ τ} {bindings grown : Bindings}

/-- Slots of two allocators that are used alike. None belongs to another context
    or function. -/
structure PairsSlot (c : Staging σ τ) (bindings : Bindings) (slot slot' : Slot) : Prop where
  storage : c.Binds bindings slot.storage slot'.storage
  capacity_eq : slot'.capacity = slot.capacity
  live_eq : slot'.live = slot.live
  scope_eq : slot.scope = 0
  scope_eq' : slot'.scope = (c.recording.emitterAt c.id).scope

/-- Two allocators that have been asked for the same. -/
structure Stores (c : Staging σ τ) (bindings : Bindings) (storage : Storage σ) (storage' : Storage τ) : Prop where
  tracks : c.Tracks bindings storage.world storage'.world
  maxSlots_eq : storage'.allocator.maxSlots = storage.allocator.maxSlots
  slots : List.Forall₂ (c.PairsSlot bindings) storage.allocator.slots.toList storage'.allocator.slots.toList

/-- Variables that stand for each other have the same slot. -/
structure Pairs (c : Staging σ τ) (bindings : Bindings) (v v' : Variable) : Prop extends
    c.Binds bindings v.value v'.value where
  slot_eq : v'.slot = v.slot

variable {storage : Storage σ} {storage' : Storage τ} {v v' : Variable} {slot slot' : Slot}

theorem Pairs.grow (h : c.Pairs bindings v v') (hgrown : bindings ⊆ grown) : c.Pairs grown v v' :=
  ⟨h.toBinds.grow hgrown, h.slot_eq⟩

theorem PairsSlot.grow (h : c.PairsSlot bindings slot slot') (hgrown : bindings ⊆ grown) : c.PairsSlot grown slot slot' :=
  ⟨h.storage.grow hgrown, h.capacity_eq, h.live_eq, h.scope_eq, h.scope_eq'⟩

namespace Stores

variable (h : c.Stores bindings storage storage')
include h

theorem totalSlots_eq : storage'.allocator.totalSlots = storage.allocator.totalSlots := by
  rw [SlotAllocator.totalSlots, SlotAllocator.totalSlots, ← Array.length_toList, ← Array.length_toList, h.slots.length_eq]

/-- The same slot is handed out again. -/
theorem recyclable? (dtype : DType) (needed : Nat) :
    Option.Rel (fun found found' => c.PairsSlot bindings found.1 found'.1 ∧ found.2 = found'.2)
      (storage.allocator.recyclable? 0 dtype needed)
      (storage'.allocator.recyclable? (c.recording.emitterAt c.id).scope dtype needed) := by
  let fits (scope : Nat) (slot : Slot) : Bool :=
    !slot.live && slot.scope == scope && slot.storage.dtype == dtype && needed ≤ slot.capacity
  refine rel_find?_zipIdx (p := fits 0) (q := fits (c.recording.emitterAt c.id).scope) h.slots (fun slot slot' hslot => ?_) 0
  simp only [fits, hslot.live_eq, hslot.scope_eq, hslot.scope_eq', hslot.storage.dtype_eq, hslot.capacity_eq,
    beq_self_eq_true]

/-- Handing a slot out on both sides, or taking it back, keeps the slots
    paired. -/
theorem setLive (index : Nat) (live : Bool) :
    c.Stores bindings { storage with allocator := storage.allocator.setLive index live }
      { storage' with allocator := storage'.allocator.setLive index live } := by
  refine ⟨h.tracks, h.maxSlots_eq, ?_⟩
  rw [SlotAllocator.toList_setLive, SlotAllocator.toList_setLive]
  refine forall₂_modify h.slots (fun slot slot' hslot => ?_) index
  exact ⟨hslot.storage, hslot.capacity_eq, rfl, hslot.scope_eq, hslot.scope_eq'⟩

end Stores

/-- Two allocators hand out storage alike. -/
theorem joint_allocate (dtype : DType) {layout : Layout} (hformed : layout.Formed) :
    Joint c.Stores c.Pairs bindings (StorageM.allocate dtype layout : StorageM σ Variable)
      (StorageM.allocate dtype layout : StorageM τ Variable) := by
  intro storage storage' v v' after after' h hrun hrun'
  obtain ⟨needed, hneeded⟩ : ∃ needed, layout.memorySize = .ok needed := by
    cases hsize : layout.memorySize with
    | error fault =>
      rw [StorageM.runFrom_allocate_of_overflow h.tracks.active hsize] at hrun
      cases hrun
    | ok needed => exact ⟨needed, rfl⟩
  have hscope : storage.world.scopeOf .compute = 0 := rfl
  have hscope' : storage'.world.scopeOf (.emitter c.id) = (c.recording.emitterAt c.id).scope := h.tracks.scope_eq
  rw [StorageM.runFrom_allocate h.tracks.active hneeded, hscope] at hrun
  rw [StorageM.runFrom_allocate h.tracks.active' hneeded, hscope'] at hrun'
  have hfound := h.recyclable? dtype needed
  generalize storage.allocator.recyclable? 0 dtype needed = found at hrun hfound
  generalize storage'.allocator.recyclable? (c.recording.emitterAt c.id).scope dtype needed = found' at hrun' hfound
  cases hfound with
  | @some found found' hslot =>
    obtain ⟨slot, index⟩ := found
    obtain ⟨slot', index'⟩ := found'
    obtain ⟨hslot, rfl⟩ := hslot
    dsimp only at hrun hrun' hslot
    cases hview : slot.storage.withLayout storage.world.heap layout with
    | error failure => rw [hview] at hrun; cases hrun
    | ok view =>
      cases hview' : slot'.storage.withLayout storage'.world.heap layout with
      | error failure => rw [hview'] at hrun'; cases hrun'
      | ok view' =>
        rw [hview] at hrun
        rw [hview'] at hrun'
        cases hrun
        cases hrun'
        obtain ⟨htracks, hbinds⟩ := h.tracks.withLayout hslot.storage hformed hview hview'
        have hgrown : bindings ⊆ bindings ++ [(view, view')] := List.subset_append_left _ _
        have hlive := h.setLive index true
        exact ⟨_, hgrown, ⟨htracks, h.maxSlots_eq, hlive.slots.imp fun _ _ hslot => hslot.grow hgrown⟩, hbinds, rfl⟩
  | none =>
    -- no slot belongs to another scope, so that fresh storage goes into a new one on both sides
    rw [SlotAllocator.stale?_eq_none (forall_of_forall₂ h.slots fun _ _ hslot => hslot.scope_eq)] at hrun
    rw [SlotAllocator.stale?_eq_none (forall_of_forall₂ h.slots.flip fun _ _ hslot => hslot.scope_eq')] at hrun'
    dsimp only at hrun hrun'
    split at hrun
    · cases hrun
    split at hrun'
    · cases hrun'
    rcases hfresh : (Context.compute.allocate dtype layout).runFrom storage.world with ⟨failure | value, world⟩ <;>
      rw [hfresh] at hrun
    · cases hrun
    rcases hfresh' : ((Context.emitter c.id).allocate dtype layout).runFrom storage'.world with ⟨failure | double, world'⟩ <;>
      rw [hfresh'] at hrun'
    · cases hrun'
    cases hrun
    cases hrun'
    obtain ⟨htracks, hbinds⟩ := h.tracks.allocate hformed hneeded hfresh hfresh'
    have hgrown : bindings ⊆ bindings ++ [(value, double)] := List.subset_append_left _ _
    refine ⟨_, hgrown, ⟨htracks, h.maxSlots_eq, ?_⟩, hbinds, ?_⟩
    · simp only [SlotAllocator.place, Array.toList_push]
      exact List.rel_append (h.slots.imp fun _ _ hslot => hslot.grow hgrown) (.cons ⟨hbinds, rfl, rfl, rfl, rfl⟩ .nil)
    · exact congrArg (fun count => some (SlotId.mk count)) h.totalSlots_eq

/-- Two allocators take storage back alike. -/
theorem joint_free (hpairs : c.Pairs bindings v v') :
    Joint c.Stores (fun _ _ _ => True) bindings (StorageM.free v : StorageM σ Unit) (StorageM.free v' : StorageM τ Unit) := by
  intro storage storage' _ _ after after' h hrun hrun'
  obtain ⟨allocator, hrelease, rfl⟩ := StorageM.runFrom_free_eq_ok.mp hrun
  obtain ⟨allocator', hrelease', rfl⟩ := StorageM.runFrom_free_eq_ok.mp hrun'
  refine ⟨bindings, List.Subset.refl _, ?_, trivial⟩
  rcases SlotAllocator.release_eq_ok.mp hrelease with ⟨hslot, rfl⟩ | ⟨id, slot, hslot, -, -, rfl⟩ <;>
    rcases SlotAllocator.release_eq_ok.mp hrelease' with ⟨hslot', rfl⟩ | ⟨id', slot', hslot', -, -, rfl⟩ <;>
    cases hslot'.symm.trans (hpairs.slot_eq.trans hslot)
  · exact h
  · exact h.setLive id.index false

end Staging

end StagedArrays
