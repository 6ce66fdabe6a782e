import StagedArrays.Proofs.Allocator.Ledger

namespace StagedArrays

/-- A slot has been filled with a piece of storage, and knows its number, type
    and extent. -/
structure Slot.Filled {σ : Type} (world : World σ) (holding : Holding) (slot : Slot) : Prop where
  scope_eq : slot.scope = holding.owner.scope
  dtype_eq : slot.storage.dtype = holding.dtype
  capacity_eq : slot.capacity = holding.length
  backs : world.Backs holding slot.storage.data

theorem Slot.Filled.advances {σ : Type} {world after : World σ} {holding : Holding} {slot : Slot}
    (h : slot.Filled world holding) (hadvances : world.Advances after) : slot.Filled after holding :=
  ⟨h.scope_eq, h.dtype_eq, h.capacity_eq, h.backs.advances hadvances⟩

/-- Every slot has been filled, no two of them with the same piece of
    storage. -/
structure World.Stocked (world : World Ledger) : Prop where
  filled : ∀ {index slot}, world.client.allocator.slots[index]? = some slot →
    ∃ holding, world.client.holdings index = some holding ∧ slot.Filled world holding
  apart : ∀ {index other slot slot' holding holding'}, index ≠ other →
    world.client.allocator.slots[index]? = some slot → world.client.allocator.slots[other]? = some slot' →
    world.client.holdings index = some holding → world.client.holdings other = some holding' →
    holding.owner = holding'.owner → ¬slot.storage.data.Shares slot'.storage.data

namespace World

variable {world after : World Ledger} {v : Variable} {dtype : DType} {layout : Layout}

/-- Handing out a slot, or taking it back, leaves in it what it was filled
    with. -/
theorem Stocked.mono (h : world.Stocked) (hadvances : world.Advances after)
    (hholdings : after.client.holdings = world.client.holdings)
    (hslots : ∀ {index : Nat} {slot : Slot}, after.client.allocator.slots[index]? = some slot →
      ∃ live, world.client.allocator.slots[index]? = some { slot with live }) : after.Stocked := by
  constructor
  · intro index slot hslot
    obtain ⟨live, hbefore⟩ := hslots hslot
    obtain ⟨holding, hholding, hfilled⟩ := h.filled hbefore
    have hafter := hfilled.advances hadvances
    exact ⟨holding, hholdings ▸ hholding, hafter.scope_eq, hafter.dtype_eq, hafter.capacity_eq, hafter.backs⟩
  · intro index other slot slot' holding holding' hne hslot hslot' hholding hholding' howner hshares
    obtain ⟨live, hbefore⟩ := hslots hslot
    obtain ⟨live', hbefore'⟩ := hslots hslot'
    rw [hholdings] at hholding hholding'
    exact h.apart hne hbefore hbefore' hholding hholding' howner hshares

theorem Stocked.advance (h : world.Stocked) (hadvances : world.Advances after) (hclient : after.client = world.client) :
    after.Stocked :=
  h.mono hadvances (by rw [hclient]) fun hslot => ⟨_, by rw [← hclient]; exact hslot⟩

/-- A slot that is handed out or taken back stays in stock with the storage it
    was made with. -/
theorem Stocked.setLive {ledger : Ledger} (h : world.Stocked) (index : Nat) (live : Bool)
    (hslots : ledger.allocator.slots = (world.client.allocator.setLive index live).slots)
    (hholdings : ledger.holdings = world.client.holdings) : Stocked { world with client := ledger } := by
  refine h.mono (advances_of_eq rfl rfl) hholdings fun {other slot} hslot => ?_
  dsimp only at hslot
  rw [hslots, SlotAllocator.getElem?_setLive] at hslot
  split at hslot
  · obtain ⟨before, hbefore, rfl⟩ := Option.map_eq_some_iff.mp hslot
    exact ⟨before.live, hbefore⟩
  · exact ⟨slot.live, hslot⟩

/-- An allocation fills a slot with storage that no other slot has, or none at
    all. -/
theorem Stocked.allocates {outcome : Except (Failure ValueError) Variable} (h : world.Stocked)
    (hallocates : Ledger.Allocates world dtype layout outcome after) : after.Stocked := by
  cases hallocates with
  | refused hadvances hclient => exact h.advance hadvances hclient
  | recycled hcontext hneeded hslot hfree hscope hdtype hroom => exact h.setLive _ true rfl rfl
  | @fresh context needed owner data stale _ hcontext hneeded hstale hroom howner hscope howns hadvances hbacks hapart
      hclient =>
    have hlt : ∀ index ∈ stale, index < world.client.allocator.slots.size := by
      intro index hindex
      obtain ⟨slot, hslot, -⟩ := hstale index hindex
      exact (Array.getElem?_eq_some_iff.mp hslot).1
    -- the slot filled just now, and the others as before
    have hcases : ∀ {index slot}, after.client.allocator.slots[index]? = some slot →
        index = stale.getD world.client.allocator.slots.size ∧ slot.storage.data = data ∧
            after.client.holdings index = some ⟨owner, dtype, needed⟩ ∧ slot.Filled after ⟨owner, dtype, needed⟩ ∨
          world.client.allocator.slots[index]? = some slot ∧
            after.client.holdings index = world.client.holdings index := by
      intro index slot hslot
      rw [hclient] at hslot ⊢
      dsimp only at hslot ⊢
      rw [SlotAllocator.getElem?_place hlt] at hslot
      rw [Function.update_apply]
      split at hslot
      · next heq =>
        cases hslot
        exact .inl ⟨heq.symm, rfl, if_pos heq.symm, ⟨hscope.symm, rfl, rfl, hbacks⟩⟩
      · next hne => exact .inr ⟨hslot, if_neg (Ne.symm hne)⟩
    constructor
    · intro index slot hslot
      rcases hcases hslot with ⟨-, -, hholding, hfilled⟩ | ⟨hbefore, hsame⟩
      · exact ⟨_, hholding, hfilled⟩
      · obtain ⟨holding, hholding, hfilled⟩ := h.filled hbefore
        exact ⟨holding, hsame.trans hholding, hfilled.advances hadvances⟩
    · intro index other slot slot' holding holding' hne hslot hslot' hholding hholding' heq hshares
      rcases hcases hslot with ⟨hindex, hdata, hnew, -⟩ | ⟨hbefore, hsame⟩
      · rcases hcases hslot' with ⟨hother, -⟩ | ⟨hbefore', hsame'⟩
        · exact hne (hindex.trans hother.symm)
        · cases hnew.symm.trans hholding
          obtain ⟨_, hfound, hfilled⟩ := h.filled hbefore'
          cases (hsame'.symm.trans hholding').symm.trans hfound
          exact hapart _ _ heq.symm hfilled.backs (hdata ▸ hshares.symm)
      · rcases hcases hslot' with ⟨-, hdata', hnew', -⟩ | ⟨hbefore', hsame'⟩
        · cases hnew'.symm.trans hholding'
          obtain ⟨_, hfound, hfilled⟩ := h.filled hbefore
          cases (hsame.symm.trans hholding).symm.trans hfound
          exact hapart _ _ heq hfilled.backs (hdata' ▸ hshares)
        · exact h.apart hne hbefore hbefore' (hsame.symm.trans hholding) (hsame'.symm.trans hholding') heq hshares

/-- Freeing something, with or without success, takes no storage out of
    stock. -/
theorem Stocked.free (h : world.Stocked) (v : Variable) : Stocked ((Ledger.free v).runFrom world).2 := by
  rw [Ledger.runFrom_free]
  cases hrelease : world.client.allocator.release v with
  | error cause => exact h.mono (advances_of_eq rfl rfl) rfl fun hslot => ⟨_, hslot⟩
  | ok allocator =>
    rcases SlotAllocator.release_eq_ok.mp hrelease with ⟨-, rfl⟩ | ⟨id, slot, -, -, -, rfl⟩
    · exact h.mono (advances_of_eq rfl rfl) rfl fun hslot => ⟨_, hslot⟩
    · exact h.setLive id.index false rfl rfl

/-- Every step keeps what is in stock. A slot is given other storage only if it
    bears another scope. -/
theorem Stocked.step {allowed : World Ledger → Call → Prop} (h : world.Stocked) (hstep : World.Step allowed world after) :
    after.Stocked := by
  cases hstep with
  | advance hadvances hclient => exact h.advance hadvances hclient
  | allocate dtype layout => exact h.allocates (Ledger.allocates world dtype layout)
  | free v => exact h.free v

/-- An allocator without slots has everything in stock. -/
theorem stocked_new {maxSlots : Nat} (h : world.client = .new maxSlots) : world.Stocked := by
  have hnone : ∀ index : Nat, world.client.allocator.slots[index]? = none := by
    intro index
    rw [h]
    rfl
  constructor
  · intro index slot hslot
    cases (hnone index).symm.trans hslot
  · intro index other slot slot' holding holding' hne hslot
    cases (hnone index).symm.trans hslot

/-- The slots of an allocator are filled and apart through all of its
    history. -/
theorem stocked_of_history {allowed : World Ledger → Call → Prop} {start : World Ledger} {maxSlots : Nat}
    (hstart : start.client = .new maxSlots) (h : World.History allowed start world) : world.Stocked := by
  induction h with
  | refl => exact stocked_new hstart
  | tail _ hstep ih => exact ih.step hstep

end World

end StagedArrays
