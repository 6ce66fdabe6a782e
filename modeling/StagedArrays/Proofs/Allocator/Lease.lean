import Mathlib.Data.List.Nodup
import StagedArrays.Proofs.Allocator.Stock

namespace StagedArrays

/-- A variable that was handed out is what was asked for, laid over the storage
    of its slot. -/
structure Lease.Fits (lease : Lease) (slot : Slot) : Prop where
  live : slot.live = true
  value_eq : lease.given.value = ⟨lease.dtype, lease.layout, slot.storage.data⟩
  dtype_eq : slot.storage.dtype = lease.dtype
  scope_eq : slot.scope = lease.scope
  room : ∃ needed, lease.layout.memorySize = .ok needed ∧ needed ≤ slot.capacity

/-- Calls under one context, where only what is recorded as handed out is given
    back. -/
def World.orderly (context : Context) (world : World Ledger) : Call → Prop
  | .allocate _ _ => world.contexts.head? = some context
  | .free v => v ∈ world.client.leases.map (·.given)

/-- The slots in use are those of the recorded variables, each of them in its
    own. -/
structure World.Accounted (context : Context) (maxSlots : Nat) (world : World Ledger) : Prop where
  maxSlots_eq : world.client.allocator.maxSlots = maxSlots
  bounded : world.client.allocator.totalSlots ≤ maxSlots
  counted : world.client.allocator.liveSlots = world.client.leases.length
  owned : ∀ {index holding}, world.client.holdings index = some holding → holding.owner.context = context
  leased : ∀ lease ∈ world.client.leases, ∃ id slot, lease.given.slot = some id ∧
    world.client.allocator.slots[id.index]? = some slot ∧ lease.Fits slot
  distinct : (world.client.leases.map (·.given.slot)).Nodup

/-- If no two members of a list have the same image, leaving out those with one
    given image leaves out one member. -/
theorem length_filter_add_one {α β : Type} [DecidableEq β] {xs : List α} {f : α → β} {b : β} (hnodup : (xs.map f).Nodup)
    (hmem : b ∈ xs.map f) : (xs.filter (f · ≠ b)).length + 1 = xs.length := by
  have hsame : (fun x => decide (f x ≠ b)) = (· != b) ∘ f := by
    funext x
    rw [Bool.eq_iff_iff, decide_eq_true_iff, Function.comp, bne_iff_ne]
  have hmap : ((xs.filter (f · ≠ b)).map f).length = ((xs.map f).erase b).length := by
    rw [hnodup.erase_eq_filter, List.filter_map, hsame]
  rw [List.length_map, List.length_erase_of_mem hmem, List.length_map] at hmap
  have hpos := List.length_pos_of_mem hmem
  rw [List.length_map] at hpos
  omega

namespace World

variable {context : Context} {maxSlots : Nat} {world after : World Ledger} {v : Variable} {dtype : DType} {layout : Layout}

/-- A slot that is free belongs to no recorded variable. It can be handed out
    without being in use twice. -/
theorem Accounted.notMem_of_free (h : world.Accounted context maxSlots) {index : Nat}
    (hfree : ∀ slot, world.client.allocator.slots[index]? = some slot → slot.live = false) :
    some ⟨index⟩ ∉ world.client.leases.map (·.given.slot) := by
  intro hmem
  obtain ⟨lease, hlease, hslot⟩ := List.mem_map.mp hmem
  obtain ⟨id, slot, hid, hfound, hfits⟩ := h.leased lease hlease
  cases hid.symm.trans hslot
  exact Bool.false_ne_true ((hfree slot hfound).symm.trans hfits.live)

/-- Another variable is recorded with the slot that was free before. The
    accounts stay right. -/
theorem Accounted.lease {ledger : Ledger} {lease : Lease} {slot : Slot} {index : Nat}
    (h : world.Accounted context maxSlots) (hclient : after.client = ledger) (hmax : ledger.allocator.maxSlots = maxSlots)
    (hbounded : ledger.allocator.totalSlots ≤ maxSlots)
    (hcounted : ledger.allocator.liveSlots = world.client.allocator.liveSlots + 1)
    (howned : ∀ {index holding}, ledger.holdings index = some holding → holding.owner.context = context)
    (hleases : ledger.leases = lease :: world.client.leases) (hid : lease.given.slot = some ⟨index⟩)
    (hslot : ledger.allocator.slots[index]? = some slot) (hfits : lease.Fits slot)
    (hfree : ∀ slot, world.client.allocator.slots[index]? = some slot → slot.live = false)
    (hothers : ∀ other, other ≠ index → ledger.allocator.slots[other]? = world.client.allocator.slots[other]?) :
    after.Accounted context maxSlots := by
  subst hclient
  have hnew := h.notMem_of_free hfree
  refine ⟨hmax, hbounded, ?_, howned, ?_, ?_⟩
  · rw [hcounted, h.counted, hleases, List.length_cons]
  · intro old hold
    rw [hleases, List.mem_cons] at hold
    rcases hold with rfl | hold
    · exact ⟨⟨index⟩, slot, hid, hslot, hfits⟩
    · obtain ⟨id, slot', hid', hfound, hfits'⟩ := h.leased old hold
      have hne : id.index ≠ index := by
        rintro rfl
        exact hnew (hid' ▸ List.mem_map_of_mem hold)
      exact ⟨id, slot', hid', (hothers _ hne).trans hfound, hfits'⟩
  · rw [hleases, List.map_cons, List.nodup_cons, hid]
    exact ⟨hnew, h.distinct⟩

/-- The accounts are part of the ledger. What leaves the ledger alone leaves
    them in order. -/
theorem Accounted.of_client_eq (h : world.Accounted context maxSlots) (hclient : after.client = world.client) :
    after.Accounted context maxSlots := by
  obtain ⟨heap, emitters, contexts, client⟩ := after
  subst hclient
  exact ⟨h.maxSlots_eq, h.bounded, h.counted, h.owned, h.leased, h.distinct⟩

/-- An allocation keeps the account: it adds a lease for exactly the slot that
    it hands out, or adds nothing and fails. -/
theorem Accounted.allocates {outcome : Except (Failure ValueError) Variable} (h : world.Accounted context maxSlots)
    (hactive : world.contexts.head? = some context)
    (hallocates : Ledger.Allocates world dtype layout outcome after) : after.Accounted context maxSlots := by
  cases hallocates with
  | refused hadvances hclient => exact h.of_client_eq hclient
  | @recycled _ needed index slot hcontext hneeded hslot hfree hscope hdtype hroom =>
    have hlive : (world.client.allocator.setLive index true).slots[index]? = some { slot with live := true } := by
      rw [SlotAllocator.getElem?_setLive, if_pos rfl, hslot, Option.map_some]
    refine h.lease rfl h.maxSlots_eq ?_ (SlotAllocator.liveSlots_setLive_true hslot hfree) h.owned rfl rfl hlive
      ⟨rfl, rfl, hdtype, ?_, needed, hneeded, hroom⟩ ?_ ?_
    · rw [SlotAllocator.totalSlots_setLive]
      exact h.bounded
    · exact hscope
    · intro found hfound
      cases hslot.symm.trans hfound
      exact hfree
    · intro other hne
      rw [SlotAllocator.getElem?_setLive, if_neg hne.symm]
  | @fresh _ needed owner data stale _ hcontext hneeded hstale hroom howner hscope howns hadvances hbacks hapart
      hclient =>
    cases hactive.symm.trans hcontext
    have hlt : ∀ index ∈ stale, index < world.client.allocator.slots.size := by
      intro index hindex
      obtain ⟨slot, hslot, -⟩ := hstale index hindex
      exact (Array.getElem?_eq_some_iff.mp hslot).1
    have hplaced := SlotAllocator.getElem?_place hlt
      ⟨⟨dtype, layout, data⟩, needed, world.scopeOf context, true⟩
    refine h.lease hclient ?_ ?_ (SlotAllocator.liveSlots_place rfl hstale) ?_ rfl rfl
      ((hplaced _).trans (if_pos rfl)) ⟨rfl, rfl, rfl, rfl, needed, hneeded, ?_⟩ ?_ ?_
    · rw [SlotAllocator.maxSlots_place]
      exact h.maxSlots_eq
    · rw [SlotAllocator.totalSlots_place]
      split
      · next hnone =>
        rw [← h.maxSlots_eq]
        exact hroom (Option.isNone_iff_eq_none.mp hnone)
      · exact h.bounded
    · intro index holding hholding
      dsimp only at hholding
      rw [Function.update_apply] at hholding
      split at hholding
      · cases hholding
        exact howns
      · exact h.owned hholding
    · exact Nat.le_of_eq rfl
    · exact fun slot hslot => SlotAllocator.free_of_place hstale hslot
    · exact fun other hne => (hplaced other).trans (if_neg hne.symm)

/-- Giving back a recorded variable frees its slot and no other. The accounts
    stay right. -/
theorem Accounted.free (h : world.Accounted context maxSlots) (hmem : v ∈ world.client.leases.map (·.given)) :
    Accounted context maxSlots ((Ledger.free v).runFrom world).2 := by
  obtain ⟨lease, hlease, rfl⟩ := List.mem_map.mp hmem
  obtain ⟨id, slot, hid, hslot, hfits⟩ := h.leased lease hlease
  have hrelease : world.client.allocator.release lease.given = .ok (world.client.allocator.setLive id.index false) :=
    SlotAllocator.release_eq_ok.mpr (.inr ⟨id, slot, hid, hslot, hfits.live, rfl⟩)
  have hnodup : (world.client.leases.map (·.given)).Nodup := by
    apply List.Nodup.of_map Variable.slot
    rw [List.map_map]
    exact h.distinct
  have hlength := length_filter_add_one hnodup hmem
  have hlive := SlotAllocator.liveSlots_setLive_false hslot hfits.live
  have hcounted := h.counted
  have hkept : (world.client.leases.filter (·.given ≠ lease.given)).Sublist world.client.leases := List.filter_sublist
  rw [Ledger.runFrom_free, hrelease]
  refine ⟨h.maxSlots_eq, ?_, ?_, h.owned, ?_, h.distinct.sublist (hkept.map _)⟩
  · exact Nat.le_trans (Nat.le_of_eq (SlotAllocator.totalSlots_setLive false)) h.bounded
  · dsimp only [Except.toOption, Option.getD_some]
    omega
  · intro other hother
    obtain ⟨hother, hne⟩ := List.mem_filter.mp hother
    obtain ⟨id', slot', hid', hslot', hfits'⟩ := h.leased other hother
    have hindex : id.index ≠ id'.index := by
      rintro heq
      obtain rfl : id = id' := by cases id; cases id'; cases heq; rfl
      have hsame := List.inj_on_of_nodup_map h.distinct hother hlease (hid'.trans hid.symm)
      rw [hsame] at hne
      simp at hne
    refine ⟨id', slot', hid', ?_, hfits'⟩
    dsimp only [Except.toOption, Option.getD_some]
    rw [SlotAllocator.getElem?_setLive, if_neg hindex]
    exact hslot'

/-- Every orderly step keeps the account, so that slots in use and leases
    correspond throughout. -/
theorem Accounted.step (h : world.Accounted context maxSlots) (hstep : World.Step (orderly context) world after) :
    after.Accounted context maxSlots := by
  cases hstep with
  | advance hadvances hclient => exact h.of_client_eq hclient
  | allocate dtype layout hallowed => exact h.allocates hallowed (Ledger.allocates world dtype layout)
  | free v hallowed => exact h.free hallowed

/-- A new allocator has no slots and no leases. Every history starts from
    here. -/
theorem accounted_new (h : world.client = .new maxSlots) : world.Accounted context maxSlots := by
  obtain ⟨heap, emitters, contexts, client⟩ := world
  subst h
  refine ⟨rfl, Nat.zero_le _, rfl, ?_, ?_, List.nodup_nil⟩
  · intro index holding hholding
    cases hholding
  · intro lease hlease
    cases hlease

/-- The accounts hold at each point of an orderly history. By induction on its
    steps. -/
theorem accounted_of_history {start : World Ledger} (hstart : start.client = .new maxSlots)
    (h : History (orderly context) start world) : world.Accounted context maxSlots := by
  induction h with
  | refl => exact accounted_new hstart
  | tail _ hstep ih => exact ih.step hstep

/-- Variables in use have slots of their own, and as far as they come from one
    scope storage of their own. Each is what was asked for, over storage that is
    large enough. -/
theorem leases_apart {start : World Ledger} (hstart : start.client = .new maxSlots)
    (h : History (orderly context) start world) :
    world.client.allocator.liveSlots = world.client.leases.length ∧
    world.client.allocator.totalSlots ≤ maxSlots ∧
    (∀ lease ∈ world.client.leases, lease.given.slot.isSome) ∧
    (world.client.leases.map (·.given.slot)).Nodup ∧
    (world.client.leases.Pairwise fun lease other =>
      lease.scope = other.scope → ¬lease.given.value.data.Shares other.given.value.data) ∧
    ∀ lease ∈ world.client.leases, lease.given.dtype = lease.dtype ∧ lease.given.layout = lease.layout ∧
      ∃ needed holding, lease.layout.memorySize = .ok needed ∧ needed ≤ holding.length ∧ holding.dtype = lease.dtype ∧
        holding.owner.context = context ∧ holding.owner.scope = lease.scope ∧
        world.Backs holding lease.given.value.data := by
  have hstocked := stocked_of_history hstart h
  have haccounted := accounted_of_history hstart h
  refine ⟨haccounted.counted, haccounted.bounded, ?_, haccounted.distinct, ?_, ?_⟩
  · intro lease hlease
    obtain ⟨id, -, hid, -⟩ := haccounted.leased lease hlease
    rw [hid]
    rfl
  · -- variables apart have slots apart, and within one scope of one context slots have one owner
    refine (List.pairwise_map.mp haccounted.distinct).imp_of_mem fun {lease other} hlease hother hne hscope => ?_
    obtain ⟨id, slot, hid, hslot, hfits⟩ := haccounted.leased lease hlease
    obtain ⟨id', slot', hid', hslot', hfits'⟩ := haccounted.leased other hother
    obtain ⟨holding, hholding, hfilled⟩ := hstocked.filled hslot
    obtain ⟨holding', hholding', hfilled'⟩ := hstocked.filled hslot'
    have hindex : id.index ≠ id'.index := by
      intro heq
      apply hne
      rw [hid, hid']
      cases id
      cases id'
      cases heq
      rfl
    have howner : holding.owner = holding'.owner := by
      apply Owner.eq_of_scope_eq ((haccounted.owned hholding).trans (haccounted.owned hholding').symm)
      rw [← hfilled.scope_eq, ← hfilled'.scope_eq, hfits.scope_eq, hfits'.scope_eq, hscope]
    rw [hfits.value_eq, hfits'.value_eq]
    exact hstocked.apart hindex hslot hslot' hholding hholding' howner
  · intro lease hlease
    obtain ⟨id, slot, hid, hslot, hfits⟩ := haccounted.leased lease hlease
    obtain ⟨holding, hholding, hfilled⟩ := hstocked.filled hslot
    obtain ⟨needed, hneeded, hroom⟩ := hfits.room
    have hdtype : lease.given.dtype = lease.dtype := congrArg Value.dtype hfits.value_eq
    have hlayout : lease.given.layout = lease.layout := congrArg Value.layout hfits.value_eq
    refine ⟨hdtype, hlayout, needed, holding, hneeded, hfilled.capacity_eq ▸ hroom, ?_, haccounted.owned hholding, ?_, ?_⟩
    · rw [← hfilled.dtype_eq, hfits.dtype_eq]
    · rw [← hfilled.scope_eq, hfits.scope_eq]
    · rw [hfits.value_eq]
      exact hfilled.backs

/-- Two slots on the host, of which the first is handed out a second time. -/
theorem leases_apart_recycled :
    let start : World Ledger := { contexts := [.compute], client := .new 2 }
    let given : Variable := ⟨some ⟨0⟩, ⟨.i32, .scalar, .host ⟨0⟩ 0⟩⟩
    let first := ((Ledger.allocate .i32 .scalar).runFrom start).2
    let second := ((Ledger.allocate .f32 ⟨[2], [1]⟩).runFrom first).2
    let third := ((Ledger.free given).runFrom second).2
    let world := ((Ledger.allocate .i32 .scalar).runFrom third).2
    world.client.leases.map (·.given) = [given, ⟨some ⟨1⟩, ⟨.f32, ⟨[2], [1]⟩, .host ⟨1⟩ 0⟩⟩] ∧
      world.client.allocator.liveSlots = 2 ∧ world.client.allocator.totalSlots ≤ 2 := by
  intro start given first second third world
  have hfirst : first.contexts.head? = some .compute := by decide +kernel
  have hgiven : given ∈ second.client.leases.map (·.given) := by decide +kernel
  have hthird : third.contexts.head? = some .compute := by decide +kernel
  have hhistory : History (orderly .compute) start world :=
    .tail (.tail (.tail (.tail .refl (.allocate .i32 .scalar rfl)) (.allocate .f32 ⟨[2], [1]⟩ hfirst))
      (.free given hgiven)) (.allocate .i32 .scalar hthird)
  obtain ⟨hlive, htotal, -⟩ := leases_apart rfl hhistory
  have hleases : world.client.leases.map (·.given) = [given, ⟨some ⟨1⟩, ⟨.f32, ⟨[2], [1]⟩, .host ⟨1⟩ 0⟩⟩] := by
    decide +kernel
  have hlength := congrArg List.length hleases
  rw [List.length_map] at hlength
  exact ⟨hleases, hlive.trans hlength, htotal⟩

end World

end StagedArrays
