import Mathlib.Logic.Function.Basic
import Mathlib.Logic.Relation
import StagedArrays.Proofs.Allocator.Allocation

namespace StagedArrays

/-- What an allocator has done with a variable: handed it out, or taken it
    back. -/
inductive Transfer where
  | given (v : Variable)
  | returned (v : Variable)
  deriving DecidableEq

namespace Transfer

def subject : Transfer → Variable
  | given v => v
  | returned v => v

/-- Whether the slot that was handed out or taken back bears a number. Transfers
    without a slot concern none. -/
def concerns (id : SlotId) (transfer : Transfer) : Bool := transfer.subject.slot == some id

/-- How a transfer leaves the slot it concerns. Without any there is no slot. -/
inductive Leaves : Option Transfer → Option Slot → Prop where
  | absent : Leaves none none
  | inUse {v : Variable} {slot : Slot} (hlive : slot.live = true) (hdata : v.value.data = slot.storage.data) :
    Leaves (some (.given v)) (some slot)
  | free {v : Variable} {slot : Slot} (hfree : slot.live = false) : Leaves (some (.returned v)) (some slot)

/-- A variable that has been given has a slot in use. Its data are those of the
    slot. -/
theorem Leaves.exists_live {v : Variable} {found : Option Slot} (h : Leaves (some (.given v)) found) :
    ∃ slot, found = some slot ∧ slot.live = true ∧ v.value.data = slot.storage.data := by
  cases h with
  | inUse hlive hdata => exact ⟨_, rfl, hlive, hdata⟩

end Transfer

/-- An allocator with what it has done so far, the latest first. -/
structure Keeper where
  allocator : SlotAllocator
  transfers : List Transfer

namespace Keeper

/-- What was last done with the slot of a number. Earlier transfers do not
    matter any more. -/
def latest? (keeper : Keeper) (id : SlotId) : Option Transfer := keeper.transfers.find? (·.concerns id)

/-- Every slot is as it was last left. What an allocator does next follows from
    its transfers then. -/
def Faithful (keeper : Keeper) : Prop :=
  ∀ id : SlotId, Transfer.Leaves (keeper.latest? id) keeper.allocator.slots[id.index]?

variable {allocator after : SlotAllocator} {transfer : Transfer} {transfers : List Transfer}

theorem faithful_new (maxSlots : Nat) : Faithful ⟨⟨maxSlots, #[]⟩, []⟩ := fun _ => .absent

/-- A transfer that leaves its own slot as it should and touches no other is
    faithfully recorded. -/
theorem Faithful.note (h : Faithful ⟨allocator, transfers⟩) {id : SlotId} (hid : transfer.subject.slot = some id)
    (hself : Transfer.Leaves (some transfer) after.slots[id.index]?)
    (hothers : ∀ other, other ≠ id.index → after.slots[other]? = allocator.slots[other]?) :
    Faithful ⟨after, transfer :: transfers⟩ := by
  intro other
  by_cases hsame : other = id
  · subst hsame
    have hconcerns : transfer.concerns other = true := by simp [Transfer.concerns, hid]
    rw [latest?, List.find?_cons_of_pos hconcerns]
    exact hself
  · have hconcerns : ¬transfer.concerns other = true := by simpa [Transfer.concerns, hid] using Ne.symm hsame
    have hindex : other.index ≠ id.index := fun heq => hsame (by cases other; cases id; cases heq; rfl)
    rw [latest?, List.find?_cons_of_neg hconcerns, hothers _ hindex]
    exact h other

/-- Variables without a slot come and go unnoticed. Giving one back changes no
    slot. -/
theorem Faithful.note_unmanaged (h : Faithful ⟨allocator, transfers⟩) (hslot : transfer.subject.slot = none) :
    Faithful ⟨allocator, transfer :: transfers⟩ := by
  intro other
  have hconcerns : ¬transfer.concerns other = true := by simp [Transfer.concerns, hslot]
  rw [latest?, List.find?_cons_of_neg hconcerns]
  exact h other

end Keeper

namespace StorageM

variable {σ : Type} {storage after : Storage σ} {dtype : DType} {layout : Layout}
  {outcome : Except (Failure AllocatorError) Variable} {transfers : List Transfer}

/-- Handing out touches one slot, which was free or new, and a refusal none. The
    slots stay as they were last left. -/
theorem Allocates.faithful (hallocates : Allocates storage dtype layout outcome after)
    (h : Keeper.Faithful ⟨storage.allocator, transfers⟩) :
    Keeper.Faithful ⟨after.allocator, (outcome.toOption.map .given).toList ++ transfers⟩ := by
  cases hallocates with
  | refused => exact h
  | @recycled context needed index slot hcontext hneeded hfound =>
    obtain ⟨hslot, -⟩ := SlotAllocator.recyclable?_eq_some hfound
    refine h.note (show _ = some ⟨index⟩ from rfl) ?_ fun other hne => ?_
    · rw [SlotAllocator.getElem?_setLive, if_pos rfl, hslot]
      exact .inUse rfl rfl
    · rw [SlotAllocator.getElem?_setLive, if_neg hne.symm]
  | @fresh context needed data world hcontext hneeded hnone hroom hrun placed hplaced =>
    subst hplaced
    have hlt : ∀ index ∈ storage.allocator.stale? (storage.world.scopeOf context),
        index < storage.allocator.slots.size := fun _ hstale => SlotAllocator.lt_of_stale?_eq_some hstale
    have hplace := SlotAllocator.getElem?_place hlt
      ⟨⟨dtype, layout, data⟩, needed, storage.world.scopeOf context, true⟩
    refine h.note rfl ?_ fun other hne => ?_
    · rw [hplace, if_pos (congrArg SlotId.index (SlotAllocator.place_fst _ _)).symm]
      exact .inUse rfl rfl
    · rw [SlotAllocator.place_fst] at hne
      exact (hplace other).trans (if_neg hne.symm)

/-- No slot is handed out that is in use. The latest transfer of its number, if
    there is one, has taken it back. -/
theorem Allocates.not_inUse {v : Variable} (hallocates : Allocates storage dtype layout (.ok v) after)
    (h : Keeper.Faithful ⟨storage.allocator, transfers⟩) :
    ∃ id, v.slot = some id ∧ ∀ w, Keeper.latest? ⟨storage.allocator, transfers⟩ id ≠ some (.given w) := by
  have hfree : ∀ {id : SlotId}, (∀ slot, storage.allocator.slots[id.index]? = some slot → slot.live = false) →
      ∀ w, Keeper.latest? ⟨storage.allocator, transfers⟩ id ≠ some (.given w) := by
    intro id hfree w hlatest
    have hleaves := h id
    rw [hlatest] at hleaves
    obtain ⟨slot, hslot, hlive, -⟩ := hleaves.exists_live
    exact Bool.false_ne_true ((hfree slot hslot).symm.trans hlive)
  cases hallocates with
  | @recycled context needed index slot hcontext hneeded hfound =>
    obtain ⟨hslot, hnotlive, -⟩ := SlotAllocator.recyclable?_eq_some hfound
    refine ⟨⟨index⟩, rfl, hfree fun other hother => ?_⟩
    cases hslot.symm.trans hother
    exact hnotlive
  | @fresh context needed data world hcontext hneeded hnone hroom hrun placed hplaced =>
    subst hplaced
    refine ⟨_, rfl, hfree fun other hother => ?_⟩
    rw [SlotAllocator.place_fst] at hother
    refine SlotAllocator.free_of_place (fun index hstale => ?_) hother
    obtain ⟨old, hold, hnotlive, -⟩ := SlotAllocator.stale?_eq_some hstale
    exact ⟨old, hold, hnotlive⟩

/-- To free a variable is to release its slot. The world is not looked at, so
    that any emitter may be active. -/
theorem runFrom_free (storage : Storage σ) (v : Variable) :
    (free v).runFrom storage = match storage.allocator.release v with
      | .ok allocator => (.ok (), { storage with allocator })
      | .error cause => (.error (.error cause), storage) := by
  simp only [free, setAllocator, Stateful.runFrom_bind, Stateful.runFrom_modify, Stateful.runFrom_get,
    Stateful.runFrom_liftM]
  cases storage.allocator.release v <;> rfl

/-- The number of a slot alone decides whether it is taken back. Who asks for it
    makes no difference. -/
theorem runFrom_free_of_faithful {v : Variable} {id : SlotId} (h : Keeper.Faithful ⟨storage.allocator, transfers⟩)
    (hid : v.slot = some id) :
    (free v).runFrom storage = match Keeper.latest? ⟨storage.allocator, transfers⟩ id with
      | some (.given _) => (.ok (), { storage with allocator := storage.allocator.setLive id.index false })
      | some (.returned _) => (.error (.error (.doubleFree id)), storage)
      | none => (.error (.error (.unknownSlot id)), storage) := by
  have hleaves := h id
  rw [runFrom_free, SlotAllocator.release, hid]
  generalize Keeper.latest? ⟨storage.allocator, transfers⟩ id = latest at hleaves ⊢
  generalize hslot : storage.allocator.slots[id.index]? = found at hleaves
  cases hleaves with
  | absent => simp [hslot]
  | inUse hlive => simp [hslot, hlive]
  | free hfree => simp [hslot, hfree]

/-- Freeing something puts it on record as returned just if it succeeds, and
    then its slot is free. -/
theorem faithful_free (storage : Storage σ) (v : Variable) (h : Keeper.Faithful ⟨storage.allocator, transfers⟩) :
    Keeper.Faithful ⟨((free v).runFrom storage).2.allocator,
      (((free v).runFrom storage).1.toOption.map fun _ => .returned v).toList ++ transfers⟩ := by
  rw [runFrom_free]
  cases hrelease : storage.allocator.release v with
  | error cause => exact h
  | ok allocator =>
    obtain ⟨hslot, rfl⟩ | ⟨id, slot, hid, hslot, hlive, rfl⟩ := SlotAllocator.release_eq_ok.mp hrelease
    · exact h.note_unmanaged hslot
    · refine h.note hid ?_ fun other hne => ?_
      · rw [SlotAllocator.getElem?_setLive, if_pos rfl, hslot]
        exact .free rfl
      · rw [SlotAllocator.getElem?_setLive, if_neg hne.symm]

end StorageM

/-- Any number of allocators at work in one world. Each has its own slots and
    its own transfers. -/
structure Keepers (σ : Type) where
  world : World σ
  keeper : Nat → Keeper

namespace Keepers

variable {σ α : Type} {start keepers after : Keepers σ}

/-- What an allocator works on: its own slots, and the world that all of them
    share. -/
def storage (keepers : Keepers σ) (i : Nat) : Storage σ := ⟨(keepers.keeper i).allocator, keepers.world⟩

/-- Has an allocator do something, and records the transfer if there is one. The
    other keepers stay as they are. -/
def call (keepers : Keepers σ) (i : Nat) (action : StorageM σ α) (transfer : α → Transfer) : Keepers σ :=
  let (outcome, storage) := action.runFrom (keepers.storage i)
  { world := storage.world
    keeper := Function.update keepers.keeper i
      ⟨storage.allocator, (outcome.toOption.map transfer).toList ++ (keepers.keeper i).transfers⟩ }

/-- What can happen to allocators. Variables are given back to any of them,
    whoever handed them out and however often, and in between contexts are
    entered and left and work goes on in the world. -/
inductive Step (keepers : Keepers σ) : Keepers σ → Prop where
  | work (world : World σ) : Step keepers { keepers with world }
  | allocate (i : Nat) (dtype : DType) (layout : Layout) :
    Step keepers (keepers.call i (StorageM.allocate dtype layout) .given)
  | free (i : Nat) (v : Variable) : Step keepers (keepers.call i (StorageM.free v) fun _ => .returned v)

/-- Any calls of any allocators, one after another. In between the world may
    become any other. -/
def History (start after : Keepers σ) : Prop := Relation.ReflTransGen Step start after

/-- A step of one keeper concerns only what that keeper has given out. What the
    others have on record stays true. -/
theorem faithful_step (hstep : Step keepers after) (h : ∀ i, (keepers.keeper i).Faithful) (i : Nat) :
    (after.keeper i).Faithful := by
  -- the allocator called is the only one that changes
  have hcall : ∀ {β : Type} {j : Nat} {action : StorageM σ β} {transfer : β → Transfer},
      Keeper.Faithful ⟨(action.runFrom (keepers.storage j)).2.allocator,
        ((action.runFrom (keepers.storage j)).1.toOption.map transfer).toList ++ (keepers.keeper j).transfers⟩ →
      ((keepers.call j action transfer).keeper i).Faithful := by
    intro β j action transfer hcalled
    change (Function.update keepers.keeper j _ i).Faithful
    rw [Function.update_apply]
    split
    · exact hcalled
    · exact h i
  cases hstep with
  | work world => exact h i
  | allocate j dtype layout => exact hcall ((StorageM.allocates (keepers.storage j) dtype layout).faithful (h j))
  | free j v => exact hcall (StorageM.faithful_free (keepers.storage j) v (h j))

/-- From allocators that have handed out nothing, every history leaves records
    that agree with the slots. -/
theorem faithful_of_history (hstart : ∀ i, ∃ maxSlots, start.keeper i = ⟨⟨maxSlots, #[]⟩, []⟩)
    (h : History start keepers) : ∀ i, (keepers.keeper i).Faithful := by
  induction h with
  | refl =>
    intro i
    obtain ⟨maxSlots, hnew⟩ := hstart i
    exact hnew ▸ Keeper.faithful_new maxSlots
  | tail _ hstep ih => exact faithful_step hstep ih

/-- A slot is taken back exactly if it has been handed out and not been taken
    back since, by whichever variable bears its number; otherwise nothing
    changes. Until then what was handed out keeps the storage of the slot, and
    nothing else is handed out with this number. -/
theorem free_of_history (hstart : ∀ i, ∃ maxSlots, start.keeper i = ⟨⟨maxSlots, #[]⟩, []⟩)
    (h : History start keepers) (i : Nat) :
    (∀ (v : Variable) (id : SlotId), v.slot = some id →
      (StorageM.free v).runFrom (keepers.storage i) = match (keepers.keeper i).latest? id with
        | some (.given _) =>
          (.ok (), { keepers.storage i with allocator := (keepers.keeper i).allocator.setLive id.index false })
        | some (.returned _) => (.error (.error (.doubleFree id)), keepers.storage i)
        | none => (.error (.error (.unknownSlot id)), keepers.storage i)) ∧
    (∀ (v : Variable) (id : SlotId), (keepers.keeper i).latest? id = some (.given v) → ∃ slot,
      (keepers.keeper i).allocator.slots[id.index]? = some slot ∧ slot.live = true ∧
        v.value.data = slot.storage.data) ∧
    ∀ (dtype : DType) (layout : Layout) (v : Variable) (after : Storage σ),
      (StorageM.allocate dtype layout).runFrom (keepers.storage i) = (.ok v, after) →
        ∃ id, v.slot = some id ∧ ∀ w, (keepers.keeper i).latest? id ≠ some (.given w) := by
  have hfaithful := faithful_of_history hstart h i
  refine ⟨fun v id hid => StorageM.runFrom_free_of_faithful hfaithful hid, fun v id hlatest => ?_,
    fun dtype layout v after hrun => ?_⟩
  · have hleaves := hfaithful id
    rw [hlatest] at hleaves
    exact hleaves.exists_live
  · have hallocates := StorageM.allocates (keepers.storage i) dtype layout
    rw [hrun] at hallocates
    exact hallocates.not_inUse hfaithful

/-- Two elements on the host, handed out and taken back. -/
def pair : Variable := ⟨some ⟨0⟩, ⟨.i32, ⟨[2], [1]⟩, .host ⟨0⟩ 0⟩⟩

/-- One element of the same storage, handed out afterwards. -/
def single : Variable := ⟨some ⟨0⟩, ⟨.i32, .scalar, .host ⟨0⟩ 0⟩⟩

def idle : Keepers Unit := ⟨{ contexts := [.compute], client := () }, fun _ => ⟨⟨64, #[]⟩, []⟩⟩

/-- The first of two allocators has handed out the storage of its only slot a
    second time. -/
def recycled : Keepers Unit :=
  let handed := idle.call 0 (StorageM.allocate .i32 ⟨[2], [1]⟩) .given
  let freed := handed.call 0 (StorageM.free pair) fun _ => .returned pair
  freed.call 0 (StorageM.allocate .i32 .scalar) .given

theorem history_recycled : History idle recycled :=
  .tail (.tail (.tail .refl (.allocate 0 .i32 ⟨[2], [1]⟩)) (.free 0 pair)) (.allocate 0 .i32 .scalar)

theorem latest?_recycled : (recycled.keeper 0).latest? ⟨0⟩ = some (.given single) := by decide +kernel

/-- The one element can be given back, but only to the allocator that it came
    from. -/
theorem free_of_history_recycled :
    (recycled.keeper 0).latest? ⟨0⟩ = some (.given single) ∧
    ((StorageM.free single).runFrom (recycled.storage 0)).1 = .ok () ∧
    (StorageM.free single).runFrom (recycled.storage 1) = (.error (.error (.unknownSlot ⟨0⟩)), recycled.storage 1) := by
  have hfirst := (free_of_history (fun _ => ⟨64, rfl⟩) history_recycled 0).1 single ⟨0⟩ rfl
  have hsecond := (free_of_history (fun _ => ⟨64, rfl⟩) history_recycled 1).1 single ⟨0⟩ rfl
  rw [latest?_recycled] at hfirst
  have hlatest : (recycled.keeper 1).latest? ⟨0⟩ = none := by decide +kernel
  rw [hlatest] at hsecond
  exact ⟨latest?_recycled, congrArg Prod.fst hfirst, hsecond⟩

/-- Giving the pair back once more takes the slot from the one element, which is
    still in use. -/
theorem free_takes_recycled_slot :
    ¬∀ (start keepers : Keepers Unit) (i : Nat) (v : Variable) (id : SlotId) (after : Storage Unit),
      (∀ j, ∃ maxSlots, start.keeper j = ⟨⟨maxSlots, #[]⟩, []⟩) → History start keepers → v.slot = some id →
      (StorageM.free v).runFrom (keepers.storage i) = (.ok (), after) →
      (keepers.keeper i).latest? id = some (.given v) := by
  intro hclaim
  have hok : ((StorageM.free pair).runFrom (recycled.storage 0)).1.toOption = some () := by decide +kernel
  rcases hrun : (StorageM.free pair).runFrom (recycled.storage 0) with ⟨_ | _, after⟩
  · rw [hrun] at hok
    cases hok
  · have hlatest := hclaim idle recycled 0 pair ⟨0⟩ after (fun _ => ⟨64, rfl⟩) history_recycled rfl hrun
    rw [latest?_recycled] at hlatest
    exact absurd hlatest (by decide)

end Keepers

end StagedArrays
