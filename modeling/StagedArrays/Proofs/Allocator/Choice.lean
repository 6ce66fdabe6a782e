import StagedArrays.Proofs.Allocator.Stock

namespace StagedArrays

/-- Whether a slot is free and serves a request as it is: its storage belongs to
    the scope, has the element type, and spans enough elements. -/
structure Slot.Suits (scope : Nat) (dtype : DType) (needed : Nat) (slot : Slot) : Prop where
  free : slot.live = false
  scope_eq : slot.scope = scope
  dtype_eq : slot.storage.dtype = dtype
  room : ∃ size, slot.storage.layout.memorySize = .ok size ∧ needed ≤ size

/-- Whether a slot is free and its storage belongs to another scope. Such a slot
    may be given other storage. -/
structure Slot.Stale (scope : Nat) (slot : Slot) : Prop where
  free : slot.live = false
  scope_ne : slot.scope ≠ scope

namespace SlotAllocator

/-- The first slot of a kind. All before it are of another. -/
structure Lowest (allocator : SlotAllocator) (kind : Slot → Prop) (index : Nat) (slot : Slot) : Prop where
  slot_eq : allocator.slots[index]? = some slot
  of_kind : kind slot
  first : ∀ earlier < index, ∀ other, allocator.slots[earlier]? = some other → ¬kind other

/-- Whether no slot is of a kind. -/
def HasNo (allocator : SlotAllocator) (kind : Slot → Prop) : Prop := ∀ slot ∈ allocator.slots, ¬kind slot

/-- An allocator with room for so many slots, each of which knows how many
    elements its storage spans. -/
structure Measured (maxSlots : Nat) (allocator : SlotAllocator) : Prop where
  maxSlots_eq : allocator.maxSlots = maxSlots
  memorySize_eq : ∀ {index : Nat} {slot : Slot}, allocator.slots[index]? = some slot →
    slot.storage.layout.memorySize = .ok slot.capacity

variable {allocator : SlotAllocator} {maxSlots scope needed index : Nat} {dtype : DType} {slot : Slot}

/-- Whether a slot suits a request is what the search compares. The capacities
    are measured, so that the comparison is exact. -/
theorem Measured.suits_iff (h : allocator.Measured maxSlots) (hslot : allocator.slots[index]? = some slot) :
    slot.Suits scope dtype needed ↔ (!slot.live && slot.scope == scope && slot.storage.dtype == dtype &&
      decide (needed ≤ slot.capacity)) = true := by
  simp only [Bool.and_eq_true, Bool.not_eq_true', beq_iff_eq, decide_eq_true_eq]
  constructor
  · rintro ⟨hfree, hscope, hdtype, size, hsize, hle⟩
    cases (h.memorySize_eq hslot).symm.trans hsize
    exact ⟨⟨⟨hfree, hscope⟩, hdtype⟩, hle⟩
  · rintro ⟨⟨⟨hfree, hscope⟩, hdtype⟩, hle⟩
    exact ⟨hfree, hscope, hdtype, _, h.memorySize_eq hslot, hle⟩

/-- The search for a slot to hand out again finds the first that suits. It goes
    through the slots from the lowest on. -/
theorem Measured.lowest_of_recyclable? (h : allocator.Measured maxSlots)
    (hfound : allocator.recyclable? scope dtype needed = some (slot, index)) :
    allocator.Lowest (Slot.Suits scope dtype needed) index slot := by
  obtain ⟨hfits, k, hlt, hget, hearlier⟩ := List.find?_eq_some_iff_getElem.mp hfound
  rw [List.getElem_zipIdx, Prod.mk.injEq, Nat.zero_add] at hget
  obtain ⟨hget, rfl⟩ := hget
  rw [List.length_zipIdx] at hlt
  have hslot : allocator.slots[k]? = some slot := by
    rw [← Array.getElem?_toList, List.getElem?_eq_getElem hlt, hget]
  refine ⟨hslot, (h.suits_iff hslot).mpr hfits, fun earlier hbefore other hother hsuits => ?_⟩
  have hfails := hearlier earlier hbefore
  rw [List.getElem_zipIdx] at hfails
  obtain ⟨hltOther, hgetOther⟩ := Array.getElem?_eq_some_iff.mp hother
  simp only [Array.getElem_toList, hgetOther, Bool.not_eq_true'] at hfails
  exact Bool.eq_false_iff.mp hfails ((h.suits_iff hother).mp hsuits)

/-- A search without a result has found that no slot suits, not just that the
    first did not. -/
theorem Measured.none_of_recyclable? (h : allocator.Measured maxSlots) (hnone : allocator.recyclable? scope dtype needed = none) :
    allocator.HasNo (Slot.Suits scope dtype needed) := by
  intro slot hmem hsuits
  obtain ⟨index, hslot⟩ := Array.mem_iff_getElem?.mp hmem
  have hzip : (slot, index) ∈ allocator.slots.toList.zipIdx := by
    rw [List.mem_zipIdx_iff_getElem?, Array.getElem?_toList]
    exact hslot
  exact List.find?_eq_none.mp hnone (slot, index) hzip ((h.suits_iff hslot).mp hsuits)

/-- Handing out a slot or taking it back measures nothing anew. The capacity
    belongs to the storage. -/
theorem Measured.setLive (h : allocator.Measured maxSlots) (index : Nat) (live : Bool) :
    (allocator.setLive index live).Measured maxSlots := by
  refine ⟨h.maxSlots_eq, fun {other slot} hslot => ?_⟩
  rw [getElem?_setLive] at hslot
  split at hslot
  · obtain ⟨before, hbefore, rfl⟩ := Option.map_eq_some_iff.mp hslot
    have hsize := h.memorySize_eq hbefore
    exact hsize
  · exact h.memorySize_eq hslot

theorem stale_iff : slot.Stale scope ↔ (!slot.live && slot.scope != scope) = true := by
  simp only [Bool.and_eq_true, Bool.not_eq_true', bne_iff_ne]
  exact ⟨fun ⟨hfree, hscope⟩ => ⟨hfree, hscope⟩, fun ⟨hfree, hscope⟩ => ⟨hfree, hscope⟩⟩

/-- The search for a slot that gives way finds the first whose storage belongs
    to another scope. -/
theorem lowest_of_stale? (h : allocator.stale? scope = some index) : ∃ slot, allocator.Lowest (Slot.Stale scope) index slot := by
  obtain ⟨hlt, hstale, hearlier⟩ := Array.findIdx?_eq_some_iff_getElem.mp h
  refine ⟨allocator.slots[index], Array.getElem?_eq_getElem hlt, stale_iff.mpr hstale, fun earlier hbefore other hother => ?_⟩
  obtain ⟨hltOther, rfl⟩ := Array.getElem?_eq_some_iff.mp hother
  exact fun hkind => hearlier earlier hbefore (stale_iff.mp hkind)

/-- A search for a stale slot without a result has found that none is stale. -/
theorem none_of_stale? (h : allocator.stale? scope = none) : allocator.HasNo (Slot.Stale scope) := by
  intro slot hmem hkind
  have hfails := Array.findIdx?_eq_none_iff.mp h slot hmem
  rw [stale_iff.mp hkind] at hfails
  cases hfails

end SlotAllocator

/-- What backs a slot serves every layout that needs no more elements than the
    slot has. -/
theorem Slot.Filled.withLayout_eq {σ : Type} {world : World σ} {holding : Holding} {slot : Slot} {layout : Layout}
    {needed : Nat} (h : slot.Filled world holding) (hneeded : layout.memorySize = .ok needed) (hle : needed ≤ slot.capacity) :
    slot.storage.withLayout world.heap layout = .ok ⟨slot.storage.dtype, layout, slot.storage.data⟩ := by
  obtain ⟨hscope, hdtype, hcapacity, hbacks⟩ := h
  unfold Value.withLayout
  unfold World.Backs at hbacks
  split at hbacks
  · obtain ⟨ref, hdata, -, hheld, hlength⟩ := hbacks
    have hbound := Layout.memorySize_lt_bound hneeded
    rw [hdata, Value.make_host_eq_ok]
    exact ⟨hheld.trans hdtype.symm, ⟨needed, hneeded, by omega, by omega⟩, rfl⟩
  · obtain ⟨buffer, hdata, -⟩ := hbacks
    rw [hdata]
    rfl

namespace World

variable {start world after : World Ledger} {maxSlots : Nat} {dtype : DType} {layout : Layout}

/-- An allocation of any outcome keeps the capacities measured: a new slot is
    measured when it is added. -/
theorem measured_allocates {outcome : Except (Failure ValueError) Variable} (h : world.client.allocator.Measured maxSlots)
    (hallocates : Ledger.Allocates world dtype layout outcome after) : after.client.allocator.Measured maxSlots := by
  cases hallocates with
  | refused hadvances hclient => rwa [hclient]
  | recycled hcontext hneeded hslot hfree hscope hdtype hroom => exact h.setLive _ true
  | @fresh context needed owner data stale _ hcontext hneeded hstale hroom howner hscope howns hadvances hbacks hapart
      hclient =>
    have hlt : ∀ index ∈ stale, index < world.client.allocator.slots.size := by
      intro index hindex
      obtain ⟨slot, hslot, -⟩ := hstale index hindex
      exact (Array.getElem?_eq_some_iff.mp hslot).1
    rw [hclient]
    refine ⟨(SlotAllocator.maxSlots_place _ _).trans h.maxSlots_eq, fun {index slot} hslot => ?_⟩
    rw [SlotAllocator.getElem?_place hlt] at hslot
    split at hslot
    · cases hslot
      exact hneeded
    · exact h.memorySize_eq hslot

/-- No step of a history leaves a slot with a capacity other than that of its
    storage. -/
theorem measured_step {allowed : World Ledger → Call → Prop} (h : world.client.allocator.Measured maxSlots)
    (hstep : World.Step allowed world after) : after.client.allocator.Measured maxSlots := by
  cases hstep with
  | advance hadvances hclient => rwa [hclient]
  | allocate dtype layout => exact measured_allocates h (Ledger.allocates world dtype layout)
  | free v =>
    rw [Ledger.runFrom_free]
    cases hrelease : world.client.allocator.release v with
    | error cause => exact h
    | ok allocator =>
      rcases SlotAllocator.release_eq_ok.mp hrelease with ⟨-, rfl⟩ | ⟨id, slot, -, -, -, rfl⟩
      · exact h
      · exact h.setLive id.index false

/-- Slots are measured through all of the allocator's history. By induction on
    its steps. -/
theorem measured_of_history {allowed : World Ledger → Call → Prop} (hstart : start.client = .new maxSlots)
    (h : World.History allowed start world) : world.client.allocator.Measured maxSlots := by
  induction h with
  | refl =>
    rw [hstart]
    exact ⟨rfl, fun hslot => by cases hslot⟩
  | tail _ hstep ih => exact measured_step ih hstep

end World

/-- What becomes of an allocation, by the slots there are. The cases are in the
    order in which they are tried, and each says what has been ruled out
    before. -/
inductive Storage.Serves {σ : Type} (storage : Storage σ) (dtype : DType) (layout : Layout) :
    Except (Failure AllocatorError) Variable × Storage σ → Prop where
  /-- Nothing is asked of the slots without a context. -/
  | inactive (hcontext : storage.world.contexts.head? = none) :
    Serves storage dtype layout (.error (.error (.value .noActiveContext)), storage)
  /-- Nor for a layout whose extent cannot be told. -/
  | oversized {context : Context} {fault : Fault} (hcontext : storage.world.contexts.head? = some context)
      (hneeded : layout.memorySize = .error fault) : Serves storage dtype layout (.error (.fault fault), storage)
  /-- The first slot that suits is handed out again, which cannot fail. -/
  | recycled {context : Context} {needed index : Nat} {slot : Slot}
      (hcontext : storage.world.contexts.head? = some context) (hneeded : layout.memorySize = .ok needed)
      (hlowest : storage.allocator.Lowest (Slot.Suits (storage.world.scopeOf context) dtype needed) index slot) :
    Serves storage dtype layout (.ok ⟨some ⟨index⟩, ⟨dtype, layout, slot.storage.data⟩⟩,
      { storage with allocator := storage.allocator.setLive index true })
  /-- If none does, the first one of another scope gets fresh storage. -/
  | replaced {context : Context} {needed index : Nat} {slot : Slot} {value : Value} {world : World σ}
      (hcontext : storage.world.contexts.head? = some context) (hneeded : layout.memorySize = .ok needed)
      (hnone : storage.allocator.HasNo (Slot.Suits (storage.world.scopeOf context) dtype needed))
      (hlowest : storage.allocator.Lowest (Slot.Stale (storage.world.scopeOf context)) index slot)
      (hrun : (context.allocate dtype layout).runFrom storage.world = (.ok value, world)) :
    Serves storage dtype layout (.ok ⟨some ⟨index⟩, value⟩,
      ⟨(storage.allocator.place ⟨value, needed, storage.world.scopeOf context, true⟩ (some index)).2, world⟩)
  /-- If there is none of those either, a new slot gets it, as long as there may
      be more. -/
  | pushed {context : Context} {needed : Nat} {value : Value} {world : World σ}
      (hcontext : storage.world.contexts.head? = some context) (hneeded : layout.memorySize = .ok needed)
      (hnone : storage.allocator.HasNo (Slot.Suits (storage.world.scopeOf context) dtype needed))
      (hfresh : storage.allocator.HasNo (Slot.Stale (storage.world.scopeOf context)))
      (hroom : storage.allocator.totalSlots < storage.allocator.maxSlots)
      (hrun : (context.allocate dtype layout).runFrom storage.world = (.ok value, world)) :
    Serves storage dtype layout (.ok ⟨some ⟨storage.allocator.totalSlots⟩, value⟩,
      ⟨(storage.allocator.place ⟨value, needed, storage.world.scopeOf context, true⟩ none).2, world⟩)
  /-- Where the context has no storage to give, the slots stay as they are. -/
  | refused {context : Context} {needed : Nat} {failure : Failure ValueError} {world : World σ}
      (hcontext : storage.world.contexts.head? = some context) (hneeded : layout.memorySize = .ok needed)
      (hnone : storage.allocator.HasNo (Slot.Suits (storage.world.scopeOf context) dtype needed))
      (hroom : storage.allocator.HasNo (Slot.Stale (storage.world.scopeOf context)) →
        storage.allocator.totalSlots < storage.allocator.maxSlots)
      (hrun : (context.allocate dtype layout).runFrom storage.world = (.error failure, world)) :
    Serves storage dtype layout (.error (failure.map .value), { storage with world })
  /-- Where there may be no more slots, nothing is asked of the context. -/
  | exhausted {context : Context} {needed : Nat} (hcontext : storage.world.contexts.head? = some context)
      (hneeded : layout.memorySize = .ok needed)
      (hnone : storage.allocator.HasNo (Slot.Suits (storage.world.scopeOf context) dtype needed))
      (hfresh : storage.allocator.HasNo (Slot.Stale (storage.world.scopeOf context)))
      (hfull : storage.allocator.maxSlots ≤ storage.allocator.totalSlots) :
    Serves storage dtype layout (.error (.error (.exhausted storage.allocator.maxSlots)), storage)

/-- Whatever the reason for a failure, no slot has changed. The world may have,
    as storage is made there. -/
theorem Storage.Serves.allocator_eq {σ : Type} {storage after : Storage σ} {dtype : DType} {layout : Layout}
    {failure : Failure AllocatorError} (h : storage.Serves dtype layout (.error failure, after)) :
    after.allocator = storage.allocator := by
  cases h <;> rfl

/-- How an allocation is served if slots are measured, and what backs them
    serves every smaller layout. -/
theorem StorageM.serves {σ : Type} {storage : Storage σ} {maxSlots : Nat} (dtype : DType) (layout : Layout)
    (hmeasured : storage.allocator.Measured maxSlots)
    (hrelaid : ∀ {index : Nat} {slot : Slot} {needed : Nat}, storage.allocator.slots[index]? = some slot →
      layout.memorySize = .ok needed → needed ≤ slot.capacity →
      slot.storage.withLayout storage.world.heap layout = .ok ⟨slot.storage.dtype, layout, slot.storage.data⟩) :
    storage.Serves dtype layout ((allocate dtype layout).runFrom storage) := by
  cases hcontext : storage.world.contexts.head? with
  | none =>
    rw [runFrom_allocate_of_inactive hcontext]
    exact .inactive hcontext
  | some context =>
    cases hneeded : layout.memorySize with
    | error fault =>
      rw [runFrom_allocate_of_overflow hcontext hneeded]
      exact .oversized hcontext hneeded
    | ok needed =>
      rw [runFrom_allocate hcontext hneeded]
      split
      · next slot index hfound =>
        have hlowest := hmeasured.lowest_of_recyclable? hfound
        obtain ⟨hslot, -, -, hdtype, hle⟩ := SlotAllocator.recyclable?_eq_some hfound
        rw [hrelaid hslot hneeded hle, hdtype]
        exact .recycled hcontext hneeded hlowest
      · next hfound =>
        have hnone := hmeasured.none_of_recyclable? hfound
        cases hstale : storage.allocator.stale? (storage.world.scopeOf context) with
        | some index =>
          obtain ⟨slot, hlowest⟩ := SlotAllocator.lowest_of_stale? hstale
          dsimp only
          rw [if_neg (by simp)]
          rcases hrun : (context.allocate dtype layout).runFrom storage.world with ⟨failure | value, world⟩
          · refine .refused hcontext hneeded hnone (fun hfresh => ?_) hrun
            exact absurd hlowest.of_kind (hfresh slot (Array.mem_of_getElem? hlowest.slot_eq))
          · exact .replaced hcontext hneeded hnone hlowest hrun
        | none =>
          have hfresh := SlotAllocator.none_of_stale? hstale
          dsimp only
          by_cases hfull : storage.allocator.maxSlots ≤ storage.allocator.totalSlots
          · rw [if_pos ⟨rfl, hfull⟩]
            exact .exhausted hcontext hneeded hnone hfresh hfull
          · rw [if_neg fun h => hfull h.2]
            rcases hrun : (context.allocate dtype layout).runFrom storage.world with ⟨failure | value, world⟩
            · exact .refused hcontext hneeded hnone (fun _ => Nat.lt_of_not_le hfull) hrun
            · exact .pushed hcontext hneeded hnone hfresh (Nat.lt_of_not_le hfull) hrun

namespace World

/-- The allocator of a world, at work there. The ledger itself is not part of
    the world that it sees. -/
def storage (world : World Ledger) : Storage Unit := ⟨world.client.allocator, world.withClient ()⟩

/-- Through all of its history an allocator serves a request by the first slot
    that suits, or else by fresh storage in the first slot of another scope, or
    in a new one while there may be more; and if it fails, for whatever reason,
    no slot has changed. -/
theorem serves_of_history {start world : World Ledger} {maxSlots : Nat} (hstart : start.client = .new maxSlots)
    (h : History anyCall start world) (dtype : DType) (layout : Layout) :
    world.storage.allocator.maxSlots = maxSlots ∧
      world.storage.Serves dtype layout ((StorageM.allocate dtype layout).runFrom world.storage) ∧
        ∀ failure after, (StorageM.allocate dtype layout).runFrom world.storage = (.error failure, after) →
          after.allocator = world.storage.allocator := by
  have hmeasured := measured_of_history hstart h
  have hserves : world.storage.Serves dtype layout ((StorageM.allocate dtype layout).runFrom world.storage) := by
    refine StorageM.serves dtype layout hmeasured fun {index slot needed} hslot hneeded hle => ?_
    obtain ⟨holding, -, hfilled⟩ := (stocked_of_history hstart h).filled hslot
    exact hfilled.withLayout_eq hneeded hle
  refine ⟨hmeasured.maxSlots_eq, hserves, fun failure after hrun => ?_⟩
  rw [hrun] at hserves
  exact hserves.allocator_eq

/-- One slot, which is free again, serves a smaller request of its type and none
    of another. -/
theorem serves_of_history_freed :
    let start : World Ledger := { contexts := [.compute], client := .new 1 }
    let given : Variable := ⟨some ⟨0⟩, ⟨.i32, ⟨[4], [1]⟩, .host ⟨0⟩ 0⟩⟩
    let world := ((Ledger.free given).runFrom ((Ledger.allocate .i32 ⟨[4], [1]⟩).runFrom start).2).2
    world.storage.Serves .i32 ⟨[2], [1]⟩ ((StorageM.allocate .i32 ⟨[2], [1]⟩).runFrom world.storage) ∧
      ((StorageM.allocate .i32 ⟨[2], [1]⟩).runFrom world.storage).1 =
        .ok ⟨some ⟨0⟩, ⟨.i32, ⟨[2], [1]⟩, .host ⟨0⟩ 0⟩⟩ ∧
      ∃ after, (StorageM.allocate .f32 ⟨[2], [1]⟩).runFrom world.storage = (.error (.error (.exhausted 1)), after) ∧
        after.allocator = world.storage.allocator := by
  intro start given world
  have hhistory : History anyCall start world :=
    .tail (.tail .refl (.allocate .i32 ⟨[4], [1]⟩ trivial)) (.free given trivial)
  obtain ⟨-, hserves, -⟩ := serves_of_history rfl hhistory .i32 ⟨[2], [1]⟩
  obtain ⟨-, -, hkeeps⟩ := serves_of_history rfl hhistory .f32 ⟨[2], [1]⟩
  have hexhausted : ((StorageM.allocate .f32 ⟨[2], [1]⟩).runFrom world.storage).1 = .error (.error (.exhausted 1)) := by
    decide +kernel
  have hrun : (StorageM.allocate .f32 ⟨[2], [1]⟩).runFrom world.storage = (.error (.error (.exhausted 1)), _) :=
    Prod.ext_iff.mpr ⟨hexhausted, rfl⟩
  exact ⟨hserves, by decide +kernel, _, hrun, hkeeps _ _ hrun⟩

/-- An allocator that may have no slots does not say so if the extent of a
    layout cannot be told. -/
theorem serves_oversized :
    let start : World Ledger := { contexts := [.compute], client := .new 0 }
    History anyCall start start ∧ start.contexts.head? = some .compute ∧ start.storage.allocator.slots = #[] ∧
      start.storage.allocator.maxSlots = 0 ∧
      (StorageM.allocate .i32 ⟨[2], [2 ^ 64 - 1]⟩).runFrom start.storage = (.error (.fault .addOverflow), start.storage) :=
  ⟨.refl, rfl, rfl, rfl, rfl⟩

end World

end StagedArrays
