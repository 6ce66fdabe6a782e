import StagedArrays.Proofs.Context.Orders
import StagedArrays.Proofs.Graph.Fresh

namespace StagedArrays

open Stateful (Couples Ends Moves)

namespace Storage

variable {σ : Type} {storage before after final : Storage σ} {base : Nat}

/-- The host is active, and no slot belongs to another context. An allocator
    that only the host has used is regular. -/
structure Regular (storage : Storage σ) : Prop where
  active : storage.world.contexts.head? = some .compute
  scope_eq : ∀ slot ∈ storage.allocator.statics, slot.scope = 0

/-- Regular storage stays regular, its slots stay what they are, and there are
    no more than there may be. -/
structure Grows (before after : Storage σ) : Prop where
  regular : after.Regular
  statics_grow : before.allocator.statics <+: after.allocator.statics
  maxSlots_eq : after.allocator.maxSlots = before.allocator.maxSlots
  bounded : before.allocator.totalSlots ≤ before.allocator.maxSlots → after.allocator.totalSlots ≤ after.allocator.maxSlots

def Extends (before after : Storage σ) : Prop := before.Regular → before.Grows after

instance : IsPreorder (Storage σ) Extends where
  refl _ h := ⟨h, List.prefix_refl _, rfl, id⟩
  trans _ _ _ h h' hregular := by
    have hgrows := h hregular
    have hgrows' := h' hgrows.regular
    exact ⟨hgrows'.regular, hgrows.statics_grow.trans hgrows'.statics_grow, hgrows'.maxSlots_eq.trans hgrows.maxSlots_eq,
      fun hle => hgrows'.bounded (hgrows.bounded hle)⟩

/-- A pool of host storage is regular. -/
theorem Pooled.regular (h : storage.Pooled base) : storage.Regular := by
  refine ⟨h.active, fun slot hmem => ?_⟩
  obtain ⟨old, hold, rfl⟩ := List.mem_map.mp hmem
  obtain ⟨index, hindex⟩ := List.mem_iff_getElem?.mp hold
  rw [Array.getElem?_toList] at hindex
  exact (h.hosted hindex).scope_eq

/-- Handing out and taking back leave the slots what they are. No slot is added
    either. -/
theorem Relabels.extends (h : before.Relabels after) : before.Extends after := by
  intro hregular
  have hstatics := h.statics_eq
  refine ⟨⟨h.world_eq ▸ hregular.active, hstatics ▸ hregular.scope_eq⟩, hstatics ▸ List.prefix_refl _, h.maxSlots_eq, ?_⟩
  rw [h.totalSlots_eq, h.maxSlots_eq]
  exact id

/-- A world with the same contexts leaves storage regular. The slots are not
    touched. -/
theorem extends_world {world : World σ} (h : storage.world.Stays world) : storage.Extends { storage with world } := by
  intro hregular
  have hcontexts : world.contexts = storage.world.contexts := h
  exact ⟨⟨hcontexts ▸ hregular.active, hregular.scope_eq⟩, List.prefix_refl _, rfl, id⟩

/-- In regular storage no slot is stale: all are of scope 0, in the scope of the
    host. -/
theorem Regular.stale?_eq_none (h : storage.Regular) : storage.allocator.stale? 0 = none := by
  cases hstale : storage.allocator.stale? 0 with
  | none => rfl
  | some index =>
    obtain ⟨slot, hslot, -, hscope⟩ := SlotAllocator.stale?_eq_some hstale
    refine (hscope (h.scope_eq slot.blank ?_)).elim
    exact List.mem_map_of_mem (List.mem_of_getElem? ((Array.getElem?_toList ..).trans hslot))

/-- An allocation recycles a slot or adds one at the end. The slots there were
    stay what they are, and the limit on their number is observed. -/
theorem extends_allocate (storage : Storage σ) (dtype : DType) (layout : Layout) :
    storage.Extends ((StorageM.allocate dtype layout).runFrom storage).2 := by
  intro hregular
  have hself := refl_of Extends storage hregular
  cases hneeded : layout.memorySize with
  | error fault =>
    rw [StorageM.runFrom_allocate_of_overflow hregular.active hneeded]
    exact hself
  | ok needed =>
    have hscope : storage.world.scopeOf .compute = 0 := rfl
    rw [StorageM.runFrom_allocate hregular.active hneeded, hscope, hregular.stale?_eq_none]
    cases storage.allocator.recyclable? 0 dtype needed with
    | some found =>
      obtain ⟨slot, index⟩ := found
      dsimp only
      split
      · have hrelabels : storage.Relabels { storage with allocator := storage.allocator.setLive index true } :=
          ⟨storage.allocator.statics_setLive index true, rfl, rfl⟩
        exact hrelabels.extends hregular
      · exact hself
    | none =>
      dsimp only
      split
      · exact hself
      · next hroom =>
        rw [Context.allocate, Action.runFrom_onHeap]
        rcases (Direct.allocate dtype layout).runFrom storage.world.heap with ⟨failure | value, heap⟩
        · have hstays : storage.world.Stays { storage.world with heap } := rfl
          exact extends_world hstays hregular
        · have hstatics : (storage.allocator.slots.push ⟨value, needed, 0, true⟩).toList.map Slot.blank =
              storage.allocator.statics ++ [⟨value, needed, 0, false⟩] := by
            rw [Array.toList_push, List.map_append]
            rfl
          refine ⟨⟨hregular.active, fun slot hmem => ?_⟩, ⟨_, hstatics.symm⟩, rfl, fun _ => ?_⟩
          · have hmem' : slot ∈ storage.allocator.statics ++ [⟨value, needed, 0, false⟩] := hstatics ▸ hmem
            rcases List.mem_append.mp hmem' with hmem | hmem
            · exact hregular.scope_eq slot hmem
            · rw [List.mem_singleton.mp hmem]
          · change (storage.allocator.slots.push ⟨value, needed, 0, true⟩).size ≤ storage.allocator.maxSlots
            rw [Array.size_push]
            exact Nat.lt_of_not_le fun hle => hroom ⟨rfl, hle⟩

/-- Storage has no more slots than it is going to have. The slots that there are
    begin the list of those that will be. -/
def Later (slots : List Slot) (storage : Storage σ) : Prop := storage.Regular → storage.allocator.statics <+: slots

/-- What has no more slots than there are going to be had no more before. Slots
    are never taken away. -/
theorem Later.of_extends {slots : List Slot} (h : Later slots after) (hextends : before.Extends after) : Later slots before := by
  intro hregular
  have hgrows := hextends hregular
  exact hgrows.statics_grow.trans (h hgrows.regular)

/-- Other storage has the same slots, and behind them those that are still to be
    made here. -/
structure Trails (slots : List Slot) (storage other : Storage σ) : Prop where
  maxSlots_eq : other.allocator.maxSlots = storage.allocator.maxSlots
  slots_eq : other.allocator.slots.toList = storage.allocator.slots.toList ++ slots.drop storage.allocator.totalSlots
  free : ∀ slot ∈ slots, slot.live = false
  length_le : slots.length ≤ storage.allocator.maxSlots

variable {other : Storage σ} {slots : List Slot} {dtype : DType} {layout : Layout} {needed index : Nat} {slot : Slot}

/-- Changing a member of the first list leaves the second one alone. -/
theorem modify_append_of_lt {α : Type} {xs : List α} (h : index < xs.length) (f : α → α) (ys : List α) :
    (xs ++ ys).modify index f = xs.modify index f ++ ys := by
  induction xs generalizing index with
  | nil => exact (Nat.not_lt_zero index h).elim
  | cons x xs ih =>
    cases index with
    | zero => rfl
    | succ index => exact congrArg (x :: ·) (ih (Nat.lt_of_succ_lt_succ h))

namespace Trails

/-- A slot that is there is the same on both sides. -/
theorem getElem?_eq (h : Trails slots storage other) (hslot : storage.allocator.slots[index]? = some slot) :
    other.allocator.slots[index]? = some slot := by
  rw [← Array.getElem?_toList] at hslot ⊢
  rw [h.slots_eq, List.getElem?_append_left (List.getElem?_eq_some_iff.mp hslot).1, hslot]

/-- Handing out a slot on both sides, or taking it back, leaves one with the
    slots of the other as before. -/
theorem setLive (h : Trails slots storage other) (hlt : index < storage.allocator.totalSlots) (live : Bool) :
    Trails slots { storage with allocator := storage.allocator.setLive index live }
      { other with allocator := other.allocator.setLive index live } := by
  refine ⟨h.maxSlots_eq, ?_, h.free, h.length_le⟩
  dsimp only
  rw [SlotAllocator.totalSlots_setLive, SlotAllocator.setLive, SlotAllocator.setLive, Array.toList_modify, Array.toList_modify,
    h.slots_eq]
  exact modify_append_of_lt (by rwa [Array.length_toList]) _ _

/-- Up to the slots that are still to be made, the same slot is found. The first
    slot that suits is the lowest, and the further slots come last. -/
theorem recyclable?_eq (h : Trails slots storage other) (scope : Nat) (dtype : DType) (needed : Nat) :
    other.allocator.recyclable? scope dtype needed = (storage.allocator.recyclable? scope dtype needed).or
      (((slots.drop storage.allocator.totalSlots).zipIdx storage.allocator.totalSlots).find? fun (slot, _) =>
        !slot.live && slot.scope == scope && slot.storage.dtype == dtype && needed ≤ slot.capacity) := by
  rw [SlotAllocator.recyclable?, SlotAllocator.recyclable?, h.slots_eq, List.zipIdx_append, List.find?_append, Nat.zero_add,
    Array.length_toList]
  rfl

/-- Where one side makes a slot, the other side has it already and hands it
    out. It is the first of those that are still to be made. -/
theorem push (h : Trails slots storage other) {rest : List Slot}
    (hdrop : slots.drop storage.allocator.totalSlots = slot :: rest) {world world' : World σ} :
    Trails slots ⟨{ storage.allocator with slots := storage.allocator.slots.push { slot with live := true } }, world⟩
      ⟨other.allocator.setLive storage.allocator.totalSlots true, world'⟩ := by
  refine ⟨h.maxSlots_eq, ?_, h.free, h.length_le⟩
  have htotal : (storage.allocator.slots.push { slot with live := true }).size = storage.allocator.totalSlots + 1 :=
    Array.size_push _
  have hdrop' : slots.drop (storage.allocator.totalSlots + 1) = rest := by
    rw [← List.drop_drop, hdrop, List.drop_one, List.tail_cons]
  change _ = (storage.allocator.slots.push { slot with live := true }).toList ++ slots.drop
    (storage.allocator.slots.push { slot with live := true }).size
  dsimp only
  rw [htotal, hdrop', SlotAllocator.setLive, Array.toList_modify, h.slots_eq, hdrop, Array.toList_push, List.append_assoc,
    SlotAllocator.totalSlots, ← Array.length_toList, List.modify_eq_take_drop, List.take_left, List.drop_left]
  rfl

/-- The slot that is made here is the next that is there already. Where there is
    no room for one, nothing is said of the other side. -/
theorem allocate_couples (h : Trails slots storage other) (hpooled : storage.Pooled base) (hpooled' : other.Pooled base)
    (hneeded : layout.memorySize = .ok needed)
    (hlater : Later slots ((StorageM.allocate dtype layout).runFrom storage).2) :
    Couples (fun _ => Trails slots) (fun _ => Trails slots) True ((StorageM.allocate dtype layout).runFrom storage)
      ((StorageM.allocate dtype layout).runFrom other) := by
  have hextends := extends_allocate storage dtype layout hpooled.regular
  have hprefix := hlater hextends.regular
  rw [hpooled.runFrom_allocate hneeded] at hprefix ⊢
  rw [hpooled'.runFrom_allocate hneeded, h.recyclable?_eq]
  cases hfound : storage.allocator.recyclable? 0 dtype needed with
  | some found =>
    obtain ⟨slot, index⟩ := found
    have hlt : index < storage.allocator.totalSlots :=
      (Array.getElem?_eq_some_iff.mp (SlotAllocator.recyclable?_eq_some hfound).1).1
    rw [Option.some_or]
    exact .of_ok (h.setLive hlt true)
  | none =>
    rw [hfound] at hprefix
    rw [Option.none_or]
    dsimp only at hprefix ⊢
    by_cases hfull : storage.allocator.maxSlots ≤ storage.allocator.totalSlots
    · have hrest : slots.drop storage.allocator.totalSlots = [] :=
        List.drop_eq_nil_of_le (Nat.le_trans h.length_le hfull)
      have htotal : other.allocator.totalSlots = storage.allocator.totalSlots := by
        rw [SlotAllocator.totalSlots, ← Array.length_toList, h.slots_eq, hrest, List.append_nil, Array.length_toList]
        rfl
      rw [if_pos hfull, hrest, List.zipIdx_nil, List.find?_nil]
      dsimp only
      rw [h.maxSlots_eq, htotal, if_pos hfull]
      exact .of_error h
    · rw [if_neg hfull] at hprefix ⊢
      rcases dtype.reserve_cases needed with hroom | hroom
      swap
      · rw [hroom]
        exact .of_fault trivial
      rw [hroom] at hprefix ⊢
      obtain ⟨rest, hrest⟩ := hprefix
      let value : Value := ⟨dtype, layout, .host ⟨storage.world.heap.buffers.size⟩ 0⟩
      have hslots : slots = storage.allocator.statics ++ (⟨value, needed, 0, false⟩ :: rest) := by
        rw [← hrest, SlotAllocator.statics, Array.toList_push, List.map_append, List.append_assoc]
        rfl
      have hdrop : slots.drop storage.allocator.totalSlots = ⟨value, needed, 0, false⟩ :: rest := by
        rw [hslots, ← SlotAllocator.length_statics, List.drop_left]
      rw [hdrop, List.zipIdx_cons, List.find?_cons_of_pos (by simp [value])]
      exact .of_ok (h.push hdrop)

end Trails

end Storage

namespace ActivityM

variable {σ : Type} {s t : Activity σ} {slots : List Slot} {v : Variable}

/-- A slot that is there is given back on both sides. Slots that are still to be
    made are free throughout. -/
theorem free_couples (h : s.storage.Trails slots t.storage)
    (hlt : ∀ id, v.slot = some id → id.index < s.storage.allocator.totalSlots) :
    Couples (fun _ s' t' => s'.storage.Trails slots t'.storage ∧ s.storage.Relabels s'.storage ∧ t.storage.Relabels t'.storage)
      (fun _ s' t' => s'.storage.Trails slots t'.storage ∧ s.storage.Relabels s'.storage ∧ t.storage.Relabels t'.storage) False
      ((free v).runFrom s) ((free v).runFrom t) := by
  suffices hfree : Couples (fun _ s' t' => s'.storage.Trails slots t'.storage) (fun _ s' t' => s'.storage.Trails slots t'.storage)
      False ((free v).runFrom s) ((free v).runFrom t) from hfree.and_ends (relabels_free v s) (relabels_free v t)
  rw [runFrom_free, runFrom_free]
  cases hslot : v.slot with
  | none =>
    simp only [SlotAllocator.release, hslot]
    exact .of_ok h
  | some id =>
    obtain ⟨slot, hfound⟩ : ∃ slot, s.storage.allocator.slots[id.index]? = some slot :=
      ⟨_, Array.getElem?_eq_getElem (hlt id hslot)⟩
    simp only [SlotAllocator.release, hslot, hfound, h.getElem?_eq hfound]
    by_cases hlive : slot.live = true
    · have htrails := h.setLive (hlt id hslot) false
      rw [if_pos hlive, if_pos hlive]
      exact .of_ok htrails
    · rw [if_neg hlive, if_neg hlive]
      exact .of_error h

end ActivityM

end StagedArrays
