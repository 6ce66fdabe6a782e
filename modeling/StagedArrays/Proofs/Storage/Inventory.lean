import Mathlib.Logic.Relation
import StagedArrays.Proofs.Allocator.Allocation
import StagedArrays.Proofs.Storage.Offers

namespace StagedArrays

/-- The storage of every slot lies within the buffers there are. This is so for
    free slots as well. -/
def SlotAllocator.Fits (heap : Heap) (allocator : SlotAllocator) : Prop :=
  ∀ (index : Nat) (slot : Slot), allocator.slots[index]? = some slot → slot.storage.Fits heap

namespace SlotAllocator

variable {heap after : Heap} {allocator : SlotAllocator}

theorem Fits.advance (h : allocator.Fits heap) (hadvances : heap.Advances after) : allocator.Fits after :=
  fun index slot hslot => (h index slot hslot).advance hadvances

/-- Whether a slot is in use is nothing to its storage. -/
theorem Fits.setLive (h : allocator.Fits heap) (index : Nat) (live : Bool) : (allocator.setLive index live).Fits heap := by
  intro other slot hslot
  rw [getElem?_setLive] at hslot
  split at hslot
  · obtain ⟨earlier, hearlier, rfl⟩ := Option.map_eq_some_iff.mp hslot
    exact h other earlier hearlier
  · exact h other slot hslot

/-- A slot with storage that there is may be placed anywhere. It takes the place
    of a stale slot or a new one. -/
theorem Fits.place (h : allocator.Fits heap) {stale : Option Nat}
    (hstale : ∀ index ∈ stale, index < allocator.slots.size) {slot : Slot} (hslot : slot.storage.Fits heap) :
    (allocator.place slot stale).2.Fits heap := by
  intro other found hfound
  rw [getElem?_place hstale] at hfound
  split at hfound
  · obtain rfl := Option.some.inj hfound
    exact hslot
  · exact h other found hfound

end SlotAllocator

namespace StorageM

variable {σ : Type} {storage after : Storage σ} {dtype : DType} {layout : Layout}

/-- Slots are laid out anew, or filled with fresh storage. -/
theorem fits_of_allocate {outcome : Except (Failure AllocatorError) Variable}
    (h : storage.allocator.Fits storage.world.heap) (hformed : layout.Formed)
    (hrun : (allocate dtype layout).runFrom storage = (outcome, after)) :
    storage.world.heap.Advances after.world.heap ∧ after.allocator.Fits after.world.heap ∧
      ∀ v, outcome = .ok v → v.value.Fits after.world.heap := by
  cases hcontext : storage.world.contexts.head? with
  | none =>
    rw [runFrom_allocate_of_inactive hcontext] at hrun
    cases hrun
    exact ⟨.refl _, h, nofun⟩
  | some context =>
    cases hneeded : layout.memorySize with
    | error fault =>
      rw [runFrom_allocate_of_overflow hcontext hneeded] at hrun
      cases hrun
      exact ⟨.refl _, h, nofun⟩
    | ok needed =>
      rw [runFrom_allocate hcontext hneeded] at hrun
      split at hrun
      · next slot index hfound =>
        obtain ⟨hslot, -⟩ := SlotAllocator.recyclable?_eq_some hfound
        cases hview : slot.storage.withLayout storage.world.heap layout with
        | error failure =>
          rw [hview] at hrun
          cases hrun
          exact ⟨.refl _, h, nofun⟩
        | ok value =>
          rw [hview] at hrun
          cases hrun
          refine ⟨.refl _, h.setLive index true, fun v hv => ?_⟩
          cases hv
          exact (h index slot hslot).withLayout hformed hview
      · dsimp only at hrun
        split at hrun
        · cases hrun
          exact ⟨.refl _, h, nofun⟩
        · obtain ⟨hadvances, hfits⟩ := @Context.hands_allocate σ storage.world context dtype layout hformed
          rcases hfresh : (context.allocate dtype layout).runFrom storage.world with ⟨failure | value, world⟩
          · rw [hfresh] at hrun hadvances
            cases hrun
            exact ⟨hadvances, h.advance hadvances, nofun⟩
          · rw [hfresh] at hrun hadvances hfits
            cases hrun
            have hvalue := hfits value rfl
            refine ⟨hadvances, (h.advance hadvances).place (fun index hindex => ?_) hvalue, fun v hv => ?_⟩
            · obtain ⟨slot, hslot, -⟩ := SlotAllocator.stale?_eq_some hindex
              exact (Array.getElem?_eq_some_iff.mp hslot).1
            · cases hv
              exact hvalue

/-- Freeing changes neither the world nor the storage of slots. -/
theorem fits_of_free {v : Variable} {outcome : Except (Failure AllocatorError) Unit}
    (h : storage.allocator.Fits storage.world.heap) (hrun : (free v).runFrom storage = (outcome, after)) :
    after.world = storage.world ∧ after.allocator.Fits after.world.heap := by
  cases hrelease : storage.allocator.release v with
  | error cause =>
    have hsame : (free v).runFrom storage = (.error (.error cause), storage) := by
      simp only [free, Stateful.runFrom_bind, Stateful.runFrom_get, hrelease]
      rfl
    cases hsame.symm.trans hrun
    exact ⟨rfl, h⟩
  | ok released =>
    have hset : (free v).runFrom storage = (.ok (), { storage with allocator := released }) := by
      simp [free, Stateful.runFrom_bind, hrelease]
    cases hset.symm.trans hrun
    refine ⟨rfl, ?_⟩
    rcases SlotAllocator.release_eq_ok.mp hrelease with ⟨-, rfl⟩ | ⟨id, slot, -, -, -, rfl⟩
    · exact h
    · exact h.setLive id.index false

end StorageM

/-- A world with the slot allocators in it, and the values that the library has
    handed out. -/
structure Inventory (σ : Type) where
  world : World σ
  allocators : List SlotAllocator := []
  values : List Value := []

namespace Inventory

variable {σ : Type} {start s t : Inventory σ}

/-- An operation of the library, or of an allocator; or anything else that
    leaves every buffer its type and length, such as to enter and leave
    contexts, or to write elements. -/
inductive Step [ArrayLibrary] (s : Inventory σ) : Inventory σ → Prop
  | perform {action : Action σ (List Value)} {outcome : Except (Failure ValueError) (List Value)} {after : World σ}
      (hoffers : Offers s.world.heap s.values action) (hrun : action.runFrom s.world = (outcome, after)) :
      Step s { s with world := after, values := s.values ++ outcome.toOption.getD [] }
  | newAllocator (maxSlots : Nat) : Step s { s with allocators := s.allocators ++ [{ maxSlots }] }
  | slotAllocate {index : Nat} {allocator : SlotAllocator} {dtype : DType} {layout : Layout}
      {outcome : Except (Failure AllocatorError) Variable} {after : Storage σ}
      (hallocator : s.allocators[index]? = some allocator) (hformed : layout.Formed)
      (hrun : (StorageM.allocate dtype layout).runFrom ⟨allocator, s.world⟩ = (outcome, after)) :
      Step s { world := after.world, allocators := s.allocators.set index after.allocator,
               values := s.values ++ (outcome.toOption.map Variable.value).toList }
  | slotFree {index : Nat} {allocator : SlotAllocator} {v : Variable}
      {outcome : Except (Failure AllocatorError) Unit} {after : Storage σ}
      (hallocator : s.allocators[index]? = some allocator)
      (hrun : (StorageM.free v).runFrom ⟨allocator, s.world⟩ = (outcome, after)) :
      Step s { s with world := after.world, allocators := s.allocators.set index after.allocator }
  | outside {after : World σ} (hadvances : s.world.heap.Advances after.heap) : Step s { s with world := after }

/-- What any number of steps leads to. The inventory grows by what each step
    hands out. -/
abbrev Reaches [ArrayLibrary] : Inventory σ → Inventory σ → Prop := Relation.ReflTransGen Step

/-- All values, and the storage of all slots, lie within the buffers there
    are. -/
structure Fits (s : Inventory σ) : Prop where
  values : FitsAll s.world.heap s.values
  allocators : ∀ allocator ∈ s.allocators, allocator.Fits s.world.heap

/-- Each operation keeps all values and the storage of all slots within the
    buffers there are. The cases are those of the operations. -/
theorem Fits.step [ArrayLibrary] (h : s.Fits) (hstep : Step s t) : t.Fits := by
  cases hstep with
  | @perform action outcome after hoffers hrun =>
    obtain ⟨hadvances, hfits⟩ := hoffers.hands h.values
    rw [hrun] at hadvances hfits
    refine ⟨fun v hv => ?_, fun allocator hmem => (h.allocators allocator hmem).advance hadvances⟩
    rcases List.mem_append.mp hv with hold | hnew
    · exact (h.values v hold).advance hadvances
    · cases outcome with
      | error failure => exact (List.not_mem_nil hnew).elim
      | ok values => exact hfits values rfl v hnew
  | newAllocator maxSlots =>
    refine ⟨h.values, fun allocator hmem => ?_⟩
    rcases List.mem_append.mp hmem with hold | hnew
    · exact h.allocators allocator hold
    · obtain rfl := List.mem_singleton.mp hnew
      intro index slot hslot
      simp at hslot
  | @slotAllocate index allocator dtype layout outcome after hallocator hformed hrun =>
    have hstocked := h.allocators allocator (List.mem_of_getElem? hallocator)
    obtain ⟨hadvances, hafter, hfits⟩ := StorageM.fits_of_allocate hstocked hformed hrun
    refine ⟨fun v hv => ?_, fun other hmem => ?_⟩
    · rcases List.mem_append.mp hv with hold | hnew
      · exact (h.values v hold).advance hadvances
      · cases outcome with
        | error failure => exact (List.not_mem_nil hnew).elim
        | ok given =>
          obtain rfl := List.mem_singleton.mp hnew
          exact hfits given rfl
    · rcases List.mem_or_eq_of_mem_set hmem with hold | rfl
      · exact (h.allocators other hold).advance hadvances
      · exact hafter
  | @slotFree index allocator v outcome after hallocator hrun =>
    have hstocked := h.allocators allocator (List.mem_of_getElem? hallocator)
    obtain ⟨hworld, hafter⟩ := StorageM.fits_of_free hstocked hrun
    have hsame : after.world.heap = s.world.heap := congrArg World.heap hworld
    refine ⟨fun value hv => hsame ▸ h.values value hv, fun other hmem => ?_⟩
    rcases List.mem_or_eq_of_mem_set hmem with hold | rfl
    · exact hsame ▸ h.allocators other hold
    · exact hafter
  | outside hadvances =>
    exact ⟨fun v hv => (h.values v hv).advance hadvances,
      fun allocator hmem => (h.allocators allocator hmem).advance hadvances⟩

/-- Whatever steps are taken, the inventory fits. By induction on the steps. -/
theorem Fits.reaches [ArrayLibrary] (h : start.Fits) (hrun : Reaches start s) : s.Fits := by
  induction hrun with
  | refl => exact h
  | tail _ hstep ih => exact ih.step hstep

end Inventory

end StagedArrays
