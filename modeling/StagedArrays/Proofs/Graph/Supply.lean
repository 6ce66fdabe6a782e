import Mathlib.Data.List.Flatten
import StagedArrays.Proofs.Allocator.Custody
import StagedArrays.Proofs.Graph.Steady
import StagedArrays.Proofs.Storage.Fits

namespace StagedArrays

/-- Variables that are in use, each with a slot of its own. This is what
    literals need in order to be used again. -/
structure Storage.Supplies {σ : Type} (storage : Storage σ) (vs : List Variable) : Prop where
  pooled : storage.Pooled 0
  bounded : storage.allocator.totalSlots ≤ storage.allocator.maxSlots
  uses : ∀ v ∈ vs, storage.Uses 0 v
  apart : (Variable.slotsOf vs).Nodup

/-- Storage with the variables it has handed out since it was new and not got
    back. Buffers may be written and taken in the meantime. -/
inductive Storage.HandsOut {σ : Type} : Storage σ → List Variable → Prop
  | new {storage : Storage σ} (hslots : storage.allocator.slots = #[])
      (hactive : storage.world.contexts.head? = some .compute) : HandsOut storage []
  | allocate {storage after : Storage σ} {vs : List Variable} {v : Variable} {dtype : DType} {layout : Layout}
      (h : HandsOut storage vs) (hformed : layout.Formed)
      (hrun : (StorageM.allocate dtype layout).runFrom storage = (.ok v, after)) : HandsOut after (v :: vs)
  | free {storage after : Storage σ} {vs : List Variable} {v : Variable} (h : HandsOut storage vs) (hmem : v ∈ vs)
      (hrun : (StorageM.free v).runFrom storage = (.ok (), after)) : HandsOut after (vs.erase v)
  | advance {storage : Storage σ} {vs : List Variable} {world : World σ} (h : HandsOut storage vs)
      (hactive : world.contexts.head? = some .compute) (hadvances : storage.world.heap.Advances world.heap) :
    HandsOut { storage with world } vs

namespace Storage

variable {σ : Type} {storage after : Storage σ} {vs ws : List Variable} {v : Variable} {dtype : DType} {layout : Layout}

/-- A slot serves a variable of its type that is no larger. The variable need
    not be the one that the slot was made for. -/
theorem Pooled.carries {base needed index : Nat} {slot : Slot} (h : storage.Pooled base)
    (hslot : storage.allocator.slots[index]? = some slot) (hdtype : slot.storage.dtype = dtype)
    (hneeded : layout.memorySize = .ok needed) (hle : needed ≤ slot.capacity) (hformed : layout.Formed) :
    storage.Carries base ⟨some ⟨index⟩, ⟨dtype, layout, slot.storage.data⟩⟩ := by
  have hhosted := h.hosted hslot
  obtain ⟨ref, hdata, -⟩ := hhosted.backed
  refine ⟨⟨?_, hformed⟩, nofun, fun id hid => ?_⟩
  · rw [← hdtype]
    exact hhosted.make_eq hneeded hle
  · cases hid
    exact ⟨slot, ref, hslot, hdata, hdata⟩

/-- What an allocation hands out can be used, and it takes nothing from
    others. -/
theorem Pooled.allocate_carries {base : Nat} (h : storage.Pooled base) (hformed : layout.Formed)
    (hrun : (StorageM.allocate dtype layout).runFrom storage = (.ok v, after)) :
    storage.Proceeds base after ∧ after.Carries base v ∧
      (storage.allocator.totalSlots ≤ storage.allocator.maxSlots → after.allocator.totalSlots ≤ after.allocator.maxSlots) := by
  cases hneeded : layout.memorySize with
  | error fault =>
    rw [StorageM.runFrom_allocate_of_overflow h.active hneeded] at hrun
    cases hrun
  | ok needed =>
    rw [h.runFrom_allocate hneeded] at hrun
    split at hrun
    · next slot index hfound =>
      obtain ⟨hslot, -, -, hdtype, hle⟩ := SlotAllocator.recyclable?_eq_some hfound
      cases hrun
      have hrelabels : storage.Relabels { storage with allocator := storage.allocator.setLive index true } :=
        ⟨SlotAllocator.statics_setLive _ _ _, rfl, rfl⟩
      exact ⟨(Proceeds.refl h).relabel hrelabels, hrelabels.carries (h.carries hslot hdtype hneeded hle hformed),
        fun hbounded => hrelabels.totalSlots_eq ▸ hbounded⟩
    · split at hrun
      · cases hrun
      · next hroom =>
        split at hrun
        · cases hrun
        cases hrun
        have hpushed := h.push dtype layout needed
        have htotal : (storage.allocator.slots.push ⟨⟨dtype, layout, .host ⟨storage.world.heap.buffers.size⟩ 0⟩, needed, 0,
            true⟩).size = storage.allocator.totalSlots + 1 := Array.size_push _
        refine ⟨⟨hpushed, storage.respects_push _ _, rfl, Nat.le_of_eq htotal⟩, ?_, fun _ => ?_⟩
        · exact hpushed.carries Array.getElem?_push_size rfl hneeded (Nat.le_refl _) hformed
        · exact Nat.le_trans (Nat.le_of_eq htotal) (Nat.lt_of_not_le hroom)

/-- An allocator without slots supplies no variable. -/
theorem supplies_new (hslots : storage.allocator.slots = #[]) (hactive : storage.world.contexts.head? = some .compute) :
    storage.Supplies [] where
  pooled := ⟨hactive, Nat.zero_le _, fun hslot => by simp [hslots] at hslot, fun hslot => by simp [hslots] at hslot⟩
  bounded := by simp [SlotAllocator.totalSlots, hslots]
  uses := nofun
  apart := List.nodup_nil

/-- The slots in use are those of the variables, and those of others. The others
    are of no concern to the graph. -/
theorem Supplies.exists_lends (h : storage.Supplies vs) : ∃ lent, storage.allocator.Lends (Variable.slotsOf vs ++ lent) := by
  obtain ⟨slots, hlends⟩ := storage.allocator.exists_lends
  have hsubset : Variable.slotsOf vs ⊆ slots := by
    intro index hmem
    obtain ⟨v, hv, hslot⟩ := GraphState.exists_of_mem_slotsOf hmem
    exact (hlends.isLive_iff index).mp ((h.uses v hv).live _ hslot)
  have hperm := List.subperm_append_diff_self_of_count_le
    (List.subperm_ext_iff.mp (List.subperm_of_subset h.apart hsubset))
  exact ⟨slots.diff (Variable.slotsOf vs), hlends.perm hperm.symm⟩

/-- A variable that was allocated goes with those that were before. Its slot is
    none of theirs. -/
theorem Supplies.allocate (h : storage.Supplies vs) (hformed : layout.Formed)
    (hrun : (StorageM.allocate dtype layout).runFrom storage = (.ok v, after)) : after.Supplies (v :: vs) := by
  obtain ⟨hproceeds, hcarries, hbounded⟩ := h.pooled.allocate_carries hformed hrun
  obtain ⟨lent, hlends⟩ := h.exists_lends
  have hlends' := (StorageM.allocate_lends hlends).ok v (congrArg Prod.fst hrun)
  rw [hrun, ← List.append_assoc, ← GraphState.slotsOf_cons] at hlends'
  have hlive {w : Variable} (hw : w ∈ v :: vs) (id : SlotId) (hid : w.slot = some id) :
      after.allocator.isLive id.index = true :=
    (hlends'.isLive_iff id.index).mpr (List.mem_append_left _ (GraphState.mem_slotsOf hw hid))
  refine ⟨hproceeds.pooled, hbounded h.bounded, fun w hw => ⟨?_, hlive hw⟩, (List.nodup_append.mp hlends'.nodup).1⟩
  rcases List.mem_cons.mp hw with rfl | hw
  · exact hcarries
  · exact hproceeds.respects.carries h.pooled (h.uses w hw).toCarries (h.uses w hw).live

/-- Some of the variables can be considered on their own. Those that are left
    out count as others. -/
theorem Supplies.of_subperm (h : storage.Supplies vs) (hsub : ws.Subperm vs) : storage.Supplies ws := by
  obtain ⟨between, hperm, hsublist⟩ := hsub
  refine ⟨h.pooled, h.bounded, fun w hw => h.uses w (hsublist.subset (hperm.mem_iff.mpr hw)), ?_⟩
  exact ((hperm.flatMap_right Variable.slots).nodup_iff).mp ((hsublist.flatMap Variable.slots).nodup h.apart)

/-- Other slots stay in use when one is given back. -/
theorem Supplies.free (h : storage.Supplies (v :: vs)) :
    ∃ after, (StorageM.free v).runFrom storage = (.ok (), after) ∧ after.Supplies vs := by
  have hrest : storage.Supplies vs := h.of_subperm (List.sublist_cons_self v vs).subperm
  cases hv : v.slot with
  | none =>
    have hrelease : storage.allocator.release v = .ok storage.allocator := SlotAllocator.release_eq_ok.mpr (.inl ⟨hv, rfl⟩)
    exact ⟨storage, by rw [StorageM.runFrom_free, hrelease], hrest⟩
  | some id =>
    have hlive := (h.uses v List.mem_cons_self).live id hv
    obtain ⟨slot, hslot, hlive⟩ := SlotAllocator.isLive_eq_true.mp hlive
    have hrelease := SlotAllocator.release_eq_ok.mpr (.inr ⟨id, slot, hv, hslot, hlive, rfl⟩)
    have hrelabels : storage.Relabels { storage with allocator := storage.allocator.setLive id.index false } :=
      ⟨SlotAllocator.statics_setLive _ _ _, rfl, rfl⟩
    refine ⟨_, by rw [StorageM.runFrom_free, hrelease], hrelabels.pooled h.pooled, hrelabels.totalSlots_eq ▸ h.bounded,
      fun w hw => ⟨hrelabels.carries (hrest.uses w hw).toCarries, fun other hother => ?_⟩, hrest.apart⟩
    have hapart := h.apart
    rw [GraphState.slotsOf_cons, Variable.slots, hv] at hapart
    have hne : id.index ≠ other.index := fun heq =>
      (List.nodup_cons.mp hapart).1 (heq ▸ GraphState.mem_slotsOf hw hother)
    show (storage.allocator.setLive id.index false).isLive other.index = true
    rw [SlotAllocator.isLive_setLive hslot, if_neg hne]
    exact (hrest.uses w hw).live other hother

/-- Buffers may be written and taken in the meantime. None of them changes its
    type or length by that. -/
theorem Supplies.advance (h : storage.Supplies vs) {world : World σ} (hactive : world.contexts.head? = some .compute)
    (hadvances : storage.world.heap.Advances world.heap) : ({ storage with world } : Storage σ).Supplies vs := by
  have hhosted {index : Nat} {slot : Slot} (hslot : storage.allocator.slots[index]? = some slot) :
      slot.Hosted 0 world.heap := by
    obtain ⟨hscope, ref, hdata, hbase, hlt, hdtype, hlength⟩ := h.pooled.hosted hslot
    obtain ⟨hlt', hdtype', hlength'⟩ := hadvances ref hlt
    exact ⟨hscope, ref, hdata, hbase, hlt', hdtype'.trans hdtype, hlength'.trans hlength⟩
  refine ⟨⟨hactive, Nat.zero_le _, hhosted, h.pooled.apart⟩, h.bounded, fun v hv => ?_, h.apart⟩
  have huses := h.uses v hv
  have hfits : v.value.Fits storage.world.heap := ⟨huses.sound, fun _ _ hdata => huses.toCarries.lt_size h.pooled hdata⟩
  exact ⟨⟨(hfits.advance hadvances).sound, huses.unmanaged, huses.managed⟩, huses.live⟩

/-- What storage hands out is in use until it is given back. Both may happen in
    any order. -/
theorem HandsOut.supplies (h : storage.HandsOut vs) : storage.Supplies vs := by
  induction h with
  | new hslots hactive => exact supplies_new hslots hactive
  | allocate _ hformed hrun ih => exact ih.allocate hformed hrun
  | free _ hmem hrun ih =>
    obtain ⟨after, hfree, hsupplies⟩ := (ih.of_subperm (List.perm_cons_erase hmem).symm.subperm).free
    rw [hrun] at hfree
    obtain rfl := (Prod.mk.inj hfree).2
    exact hsupplies
  | advance _ hactive hadvances ih => exact ih.advance hactive hadvances

end Storage

end StagedArrays
