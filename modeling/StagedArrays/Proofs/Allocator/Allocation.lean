import StagedArrays.Proofs.Allocator.Holding

namespace StagedArrays

namespace Emitter

/-- The function in progress is found exactly if there is one. Asking for it
    changes nothing. -/
theorem builder_eq_ok {emitter after : Emitter} {current : FunctionBuilder} :
    builder.runFrom emitter = (.ok current, after) ↔ emitter.current = some current ∧ after = emitter := by
  cases hcurrent : emitter.current with
  | none => simp [builder, Stateful.runFrom_bind, hcurrent]
  | some found => simp [builder, Stateful.runFrom_bind, hcurrent, eq_comm]

end Emitter

namespace Emit

/-- An emitter hands out the next buffer of the function in progress. Nothing
    else about the emitter changes. -/
theorem allocate_eq_ok {emitter after : Emitter} {dtype : DType} {layout : Layout} {needed : Nat} {value : Value}
    (hneeded : layout.memorySize = .ok needed)
    (h : (allocate dtype layout).runFrom emitter = (.ok value, after)) :
    ∃ builder, emitter.current = some builder ∧ value = .emittedBuffer dtype layout ⟨builder.buffers.size⟩ ∧
      after = { emitter with current := some (builder.newBuffer dtype needed .own).2 } := by
  unfold allocate at h
  simp only [Stateful.runFrom_bind_eq_ok, Stateful.runFrom_get, Prod.mk.injEq, Except.ok.injEq] at h
  obtain ⟨_, _, ⟨rfl, rfl⟩, builder, _, hbuilder, h⟩ := h
  obtain ⟨hcurrent, rfl⟩ := Emitter.builder_eq_ok.mp hbuilder
  refine ⟨builder, hcurrent, ?_⟩
  split at h
  · cases h
  · simp only [Stateful.runFrom_bind_eq_ok, Stateful.runFrom_liftM, Prod.mk.injEq, hneeded, liftM_fault_ok,
      Except.ok.injEq] at h
    obtain ⟨_, _, ⟨-, rfl⟩, _, _, ⟨rfl, rfl⟩, _, _, ⟨-, rfl⟩, _, _, ⟨-, rfl⟩, h⟩ := h
    split at h
    · cases h
    · cases h
      exact ⟨rfl, rfl⟩

end Emit

namespace Context

variable {σ : Type} {world after : World σ} {context : Context} {dtype : DType} {layout : Layout} {needed : Nat}
  {value : Value}

/-- What a context hands out is a piece of storage of its own that no value
    referred to before. -/
theorem exists_holding_of_allocate (hcontext : world.contexts.head? = some context)
    (hneeded : layout.memorySize = .ok needed)
    (h : (context.allocate dtype layout).runFrom world = (.ok value, after)) :
    ∃ owner, world.owner? = some owner ∧ owner.context = context ∧ owner.scope = world.scopeOf context ∧
      value.dtype = dtype ∧ value.layout = layout ∧ after.holding? value = some ⟨owner, dtype, needed⟩ ∧
      after.Backs ⟨owner, dtype, needed⟩ value.data ∧
      ∀ older data, older.owner = owner → world.Backs older data → ¬ data.Shares value.data := by
  obtain ⟨heap, emitters, contexts, client⟩ := world
  obtain ⟨rest, rfl⟩ : ∃ rest, contexts = context :: rest := by
    simpa [List.head?_eq_some_iff] using hcontext
  cases context with
  | compute =>
    rw [allocate, Action.runFrom_onHeap] at h
    have hroom := Direct.reserve_of_allocate (Prod.ext (Prod.mk.inj h).1 rfl)
    rw [hneeded, ok_bind] at hroom
    simp only [Direct.runFrom_allocate hneeded hroom] at h
    cases h
    have hget : (heap.add (.zeros dtype needed)).2.get ⟨heap.buffers.size⟩ = .zeros dtype needed :=
      heap.get_add_self _
    have hlength : ((heap.add (.zeros dtype needed)).2.get ⟨heap.buffers.size⟩).length = needed := by
      rw [hget, HostBuffer.length_zeros]
    refine ⟨.host, rfl, rfl, rfl, rfl, rfl, ?_, ⟨⟨heap.buffers.size⟩, rfl, by simp, congrArg _ hget, hlength⟩, ?_⟩
    · simp only [World.holding?, World.owner?, hlength]
      rw [hget]
      rfl
    · rintro older _ howner hbacks hshares
      rw [World.Backs, howner] at hbacks
      obtain ⟨ref, rfl, hlt, -⟩ := hbacks
      obtain rfl : ref = ⟨heap.buffers.size⟩ := hshares
      exact Nat.lt_irrefl _ hlt
  | emitter id =>
    rcases hrun : (Emit.allocate dtype layout).runFrom (emitters[id.index]?.getD default) with ⟨outcome, emitter⟩
    simp only [allocate, Action.runFrom_onEmitter, hrun] at h
    cases h
    obtain ⟨builder, hcurrent, rfl, rfl⟩ := Emit.allocate_eq_ok hneeded hrun
    have hlt : id.index < emitters.size := by
      apply Nat.lt_of_not_le
      intro hge
      rw [Array.getElem?_eq_none hge] at hcurrent
      cases hcurrent
    have hdeclared : (builder.newBuffer dtype needed .own).2.buffers[builder.buffers.size]? =
        some ⟨⟨builder.buffers.size⟩, dtype, needed, .own⟩ := Array.getElem?_push_size
    refine ⟨.function id _, if_pos (Option.isSome_iff_exists.mpr ⟨builder, hcurrent⟩), rfl, rfl, rfl, rfl, ?_, ?_, ?_⟩
    · simp [World.holding?, World.owner?, World.emitterAt, hlt, hdeclared, Value.emittedBuffer]
    · refine ⟨⟨builder.buffers.size⟩, rfl, ?_, fun _ found hfound => ?_⟩
      · simp [World.emitterAt, hlt]
      · simp only [World.emitterAt, Array.getElem?_setIfInBounds_self, hlt, if_true, Option.getD_some,
          Option.some.injEq] at hfound
        exact hfound ▸ hdeclared
    · rintro older _ howner hbacks hshares
      rw [World.Backs, howner] at hbacks
      obtain ⟨buffer, rfl, -, hkept⟩ := hbacks
      obtain rfl : buffer = ⟨builder.buffers.size⟩ := hshares
      have hfound := hkept rfl builder hcurrent
      simp at hfound

end Context

namespace StorageM

variable {σ : Type}

/-- How an allocation can end: refused with all slots as they were, served by a
    slot that is handed out again, or by fresh storage. -/
inductive Allocates (storage : Storage σ) (dtype : DType) (layout : Layout) :
    Except (Failure AllocatorError) Variable → Storage σ → Prop where
  | refused {failure : Failure AllocatorError} {world : World σ} (hadvances : storage.world.Advances world)
      (hclient : world.client = storage.world.client) :
    Allocates storage dtype layout (.error failure) { storage with world }
  | recycled {context : Context} {needed index : Nat} {slot : Slot}
      (hcontext : storage.world.contexts.head? = some context) (hneeded : layout.memorySize = .ok needed)
      (hfound : storage.allocator.recyclable? (storage.world.scopeOf context) dtype needed = some (slot, index)) :
    Allocates storage dtype layout (.ok ⟨some ⟨index⟩, ⟨dtype, layout, slot.storage.data⟩⟩)
      { storage with allocator := storage.allocator.setLive index true }
  | fresh {context : Context} {needed : Nat} {data : ValueData} {world : World σ}
      (hcontext : storage.world.contexts.head? = some context) (hneeded : layout.memorySize = .ok needed)
      (hnone : storage.allocator.recyclable? (storage.world.scopeOf context) dtype needed = none)
      (hroom : storage.allocator.stale? (storage.world.scopeOf context) = none →
        storage.allocator.totalSlots < storage.allocator.maxSlots)
      (hrun : (context.allocate dtype layout).runFrom storage.world = (.ok ⟨dtype, layout, data⟩, world))
      {placed : SlotId × SlotAllocator} (hplaced : placed = storage.allocator.place
        ⟨⟨dtype, layout, data⟩, needed, storage.world.scopeOf context, true⟩
        (storage.allocator.stale? (storage.world.scopeOf context))) :
    Allocates storage dtype layout (.ok ⟨some placed.1, ⟨dtype, layout, data⟩⟩) ⟨placed.2, world⟩

/-- Without an active context there is no storage. The allocator keeps what it
    has. -/
theorem runFrom_allocate_of_inactive {storage : Storage σ} {dtype : DType} {layout : Layout}
    (h : storage.world.contexts.head? = none) :
    (allocate dtype layout).runFrom storage = (.error (.error (.value .noActiveContext)), storage) := by
  have hcontexts : storage.world.contexts = [] := List.head?_eq_none_iff.mp h
  simp [allocate, Stateful.runFrom_bind, Action.activeContext, hcontexts, Except.mapError, Failure.map]

/-- A layout whose size overflows is no error of the allocator: the size is
    computed before any slot is looked at, and the computation breaks off. -/
theorem runFrom_allocate_of_overflow {storage : Storage σ} {dtype : DType} {layout : Layout} {context : Context}
    {fault : Fault} (hcontext : storage.world.contexts.head? = some context) (h : layout.memorySize = .error fault) :
    (allocate dtype layout).runFrom storage = (.error (.fault fault), storage) := by
  have hactive := Action.runFrom_activeContext hcontext
  simp only [allocate, Stateful.runFrom_bind, runFrom_onWorld, hactive, Context.runFrom_storageScope, Except.mapError,
    Stateful.runFrom_liftM, h]
  rfl

/-- Whatever is asked for, an allocation ends in one of the ways that are
    listed, and each leaves the storage in the state it says. -/
theorem allocates (storage : Storage σ) (dtype : DType) (layout : Layout) :
    Allocates storage dtype layout ((allocate dtype layout).runFrom storage).1
      ((allocate dtype layout).runFrom storage).2 := by
  have hsame : ∀ failure, Allocates storage dtype layout (.error failure) storage :=
    fun _ => .refused (.refl storage.world) rfl
  cases hcontext : storage.world.contexts.head? with
  | none =>
    rw [runFrom_allocate_of_inactive hcontext]
    exact hsame _
  | some context =>
    cases hneeded : layout.memorySize with
    | error fault =>
      rw [runFrom_allocate_of_overflow hcontext hneeded]
      exact hsame _
    | ok needed =>
      rw [runFrom_allocate hcontext hneeded]
      split
      · next slot index hfound =>
        cases hvalue : slot.storage.withLayout storage.world.heap layout with
        | error failure => exact hsame _
        | ok value =>
          obtain ⟨-, -, -, hdtype, -⟩ := SlotAllocator.recyclable?_eq_some hfound
          obtain rfl : value = ⟨dtype, layout, slot.storage.data⟩ := by
            rw [← hdtype]
            exact (Value.eq_of_withLayout hvalue).1
          exact .recycled hcontext hneeded hfound
      · next hnone =>
        dsimp only
        split
        · exact hsame _
        · next hroom =>
          have hadvances := context.moves_allocate dtype layout storage.world
          have hclient : ((context.allocate dtype layout).runFrom storage.world).2.client = storage.world.client := by
            cases context <;> rfl
          rcases hrun : (context.allocate dtype layout).runFrom storage.world with ⟨outcome, world⟩
          rw [hrun] at hadvances hclient
          cases outcome with
          | error failure => exact .refused hadvances hclient
          | ok value =>
            obtain ⟨_, -, -, -, hdtype, hlayout, -⟩ := Context.exists_holding_of_allocate hcontext hneeded hrun
            obtain ⟨_, _, data⟩ := value
            cases hdtype
            cases hlayout
            refine .fresh hcontext hneeded hnone (fun hstale => ?_) hrun rfl
            rw [hstale] at hroom
            exact Nat.lt_of_not_le fun hle => hroom ⟨rfl, hle⟩

end StorageM

end StagedArrays
