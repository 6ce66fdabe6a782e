import StagedArrays.Proofs.Emission.Operation

namespace StagedArrays

namespace Link

/-- The moment after one element of both executions has been overwritten, by the
    same immediate. -/
def write (l : Link) (ref other : HostRef) (index : Nat) (buffer buffer' : HostBuffer) : Link :=
  { l with
    direct := l.direct.put ref buffer
    running := ⟨l.running.frame, l.running.heap.put other buffer'⟩
    agreed := fun cell => l.agreed cell ∨ cell = ⟨ref, index⟩ }

end Link

namespace Heap

/-- Overwriting keeps the element type of every buffer, that of the one written
    to included. -/
theorem dtype_get_put {heap : Heap} {ref : HostRef} {buffer : HostBuffer}
    (h : buffer.dtype = (heap.get ref).dtype) (hlt : ref.index < heap.buffers.size) (other : HostRef) :
    ((heap.put ref buffer).get other).dtype = (heap.get other).dtype := by
  by_cases heq : other = ref
  · rw [heq, get_put_self heap buffer hlt, h]
  · rw [get_put_of_ne heap buffer heq]

/-- Overwriting keeps the length of every buffer, that of the one written to
    included. -/
theorem length_get_put {heap : Heap} {ref : HostRef} {buffer : HostBuffer}
    (h : buffer.length = (heap.get ref).length) (hlt : ref.index < heap.buffers.size) (other : HostRef) :
    ((heap.put ref buffer).get other).length = (heap.get other).length := by
  by_cases heq : other = ref
  · rw [heq, get_put_self heap buffer hlt, h]
  · rw [get_put_of_ne heap buffer heq]

end Heap

namespace Comparison

variable [ArrayLibrary] {c : Comparison} {excused : ValueError → Prop} {builder : FunctionBuilder} {l : Link}

section Write

variable {ref other : HostRef} {index : Nat} {x : Numeric} {buffer buffer' : HostBuffer}

/-- Storing the same immediate at the same place of storage that agrees keeps it
    in agreement. -/
theorem Sound.write (hsound : c.Sound l) (hpaired : c.Paired l ref other)
    (hset : (l.direct.get ref).set index x = .ok buffer)
    (hset' : (l.running.heap.get other).set index x = .ok buffer') :
    c.Sound (l.write ref other index buffer buffer') := by
  have halike := hsound.alike ref other hpaired
  have hdtype := HostBuffer.dtype_eq_of_set hset
  have hdtype' := HostBuffer.dtype_eq_of_set hset'
  have hlength := HostBuffer.length_eq_of_set hset
  have hlength' := HostBuffer.length_eq_of_set hset'
  refine ⟨?_, hsound.paired, ?_, ?_, ?_, ?_, fun cell h => .inl (hsound.logged cell h),
    hsound.storedBeforeLoaded⟩
  · intro ref' other' hpaired'
    have halike' := hsound.alike ref' other' hpaired'
    have hiff := hsound.paired ref other ref' other' hpaired hpaired'
    refine ⟨?_, ?_, ?_, ?_, ?_, ?_⟩
    · simpa [Link.write] using halike'.direct_lt
    · simpa [Link.write] using halike'.running_lt
    · simpa only [Link.write, Heap.dtype_get_put hdtype halike.direct_lt,
        Heap.dtype_get_put hdtype' halike.running_lt] using halike'.dtype_eq
    · simpa only [Link.write, Heap.length_get_put hlength halike.direct_lt,
        Heap.length_get_put hlength' halike.running_lt] using halike'.length_eq
    · simpa only [Link.write, Heap.length_get_put hlength halike.direct_lt] using halike'.signed
    · intro i hagreed
      by_cases heq : ref' = ref
      · have heq' : other' = other := (hiff.mp heq.symm).symm
        subst heq heq'
        simp only [Link.write, Heap.get_put_self _ _ halike.direct_lt, Heap.get_put_self _ _ halike.running_lt,
          HostBuffer.get?_of_set hset, HostBuffer.get?_of_set hset']
        split
        · rfl
        · next hne =>
          refine halike.get_eq i (hagreed.resolve_right ?_)
          simpa using hne
      · have hne' : other' ≠ other := fun h => heq (hiff.mpr h.symm).symm
        simp only [Link.write, Heap.get_put_of_ne _ _ heq, Heap.get_put_of_ne _ _ hne']
        refine halike'.get_eq i (hagreed.resolve_right ?_)
        simp [heq]
  · intro declaration hmem hown
    obtain ⟨other', hbound, hle, hlt, htype, hsize, halone⟩ := hsound.locals declaration hmem hown
    refine ⟨other', hbound, hle, ?_, ?_, ?_, halone⟩
    · simpa [Link.write] using hlt
    · simpa only [Link.write, Heap.dtype_get_put hdtype' halike.running_lt] using htype
    · simpa only [Link.write, Heap.length_get_put hlength' halike.running_lt] using hsize
  · simpa [Link.write] using hsound.opened
  · simpa [Link.write] using hsound.stored
  · simpa [Link.write] using hsound.originals_le

/-- Storing to a buffer in use leads on, for it leaves those not in use
    alone. -/
theorem Sound.leads_write (hsound : c.Sound l) {id : BufferId} {base : Nat} (hlt : id.index < l.buffers)
    (hbacking : l.backing id = some ref) (hbound : l.running.frame.buffers[id]? = some (other, base))
    (hset : (l.direct.get ref).set index x = .ok buffer) :
    c.Leads l (l.write ref other index buffer buffer') := by
  have halike := hsound.alike ref other (.inl ⟨id, base, hbacking, hbound⟩)
  refine ⟨⟨rfl, fun _ _ => rfl, fun _ _ => rfl, Nat.le_refl _, Nat.le_refl _, ?_, ?_, ?_, ?_⟩, ?_⟩
  · simp [Link.write]
  · intro ref' _
    exact Heap.dtype_get_put (HostBuffer.dtype_eq_of_set hset) halike.direct_lt ref'
  · intro ref' _
    exact Heap.length_get_put (HostBuffer.length_eq_of_set hset) halike.direct_lt ref'
  · exact fun _ _ h => .inl h
  · intro declaration hmem hown hle other' base' hget
    obtain ⟨alone, hbound', _, _, _, _, halone⟩ := hsound.locals declaration hmem hown
    have hother' : other' = alone := by
      rw [hbound'] at hget
      cases hget
      rfl
    refine Heap.get_put_of_ne _ _ ?_
    rintro rfl
    have hid := halone id base (hother' ▸ hbound)
    rw [← hid] at hle
    exact Nat.not_lt_of_le hle hlt

end Write

/-- A store instruction overwrites the element that stands opposite one of the
    direct execution. -/
theorem Sound.reaches_store (hsound : c.Sound l) {id : BufferId} {place value : Operand} {ref other : HostRef}
    {base index : Nat} {x : Numeric} (hlt : id.index < l.buffers) (hbacking : l.backing id = some ref)
    (hbound : l.running.frame.buffers[id]? = some (other, base)) (hplace : l.Holds place (.ofIndex index))
    (hroom : base + index < (l.direct.get ref).length) (hvalue : l.Holds value x)
    (hdtype : x.dtype = (l.direct.get ref).dtype) :
    ∃ buffer buffer', (l.direct.get ref).set (base + index) x = .ok buffer ∧
      c.Reaches l { code := [.store id place value] } (l.write ref other (base + index) buffer buffer') := by
  have hpaired : c.Paired l ref other := .inl ⟨id, base, hbacking, hbound⟩
  have halike := hsound.alike ref other hpaired
  obtain ⟨buffer, hset⟩ := HostBuffer.exists_set hdtype hroom
  obtain ⟨buffer', hset'⟩ := HostBuffer.exists_set (hdtype.trans halike.dtype_eq.symm)
    (halike.length_eq ▸ hroom)
  refine ⟨buffer, buffer', hset, hsound.leads_write hlt hbacking hbound hset,
    hsound.write hpaired hset hset', rfl, rfl, ?_⟩
  have haddress := Link.address_eq_ok hbound hplace (halike.signed.mono (Nat.le_of_lt hroom))
  simp [runBlock_singleton, Instruction.run, Stateful.runFrom_bind, haddress, hvalue.2,
    HeapM.runFrom_write hset', Link.write]

/-- A store in the recording is followed by the same store. -/
theorem records_store (destination source : Value) :
    c.Records builder ((Context.emitter c.id).store destination source) fun _ f =>
      ∀ l destination' source', l.At builder → c.Sound l → l.Matches destination destination' →
        l.Matches source source' → l.Readable source' →
          c.Follows excused l f (Context.compute.store destination' source')
            fun l' _ => l'.Readable destination' := by
  refine Emits.records (.lift_bind fun _ hrank => .lift_bind fun _ hdtype => ?_)
  have hrank : destination.layout.rank = 0 := by simpa using hrank
  have hdtype : source.dtype = destination.dtype := by simpa using hdtype
  obtain ⟨dtype, layout, data⟩ := destination
  cases data with
  | host ref offset => exact .fail
  | constant x => exact .fail
  | register id => exact .fail
  | buffer id place =>
    refine .bind (emits_operand source) fun operand f hsource => .emit (by simp [Instruction.symbols]) ?_
    intro l destination' source' hat hsound hdestination hmatches hreadable
    obtain ⟨rfl, rfl, -, hdata⟩ := hdestination
    have hrank : destination'.layout.rank = 0 := hrank
    cases hdirect : destination'.data <;> rw [hdirect] at hdata <;> simp only [Link.DataMatches] at hdata
    next ref offset =>
    obtain ⟨hlt, hbacking, other, base, index, size, hbound, hplace, rfl, hsize, hle, htype⟩ := hdata
    cases (Layout.memorySize_of_rank_zero hrank).symm.trans hsize
    obtain ⟨x, hx, hxdtype, l₁, hdirect₁, hlog₁, -, hreaches₁, hholds⟩ :=
      hsource.2 l source' hat hsound hmatches hreadable
    have hkeeps := hreaches₁.leads.toKeeps
    obtain ⟨buffer, buffer', hset, hreaches₂⟩ := hreaches₁.sound.reaches_store
      (Nat.lt_of_lt_of_le hlt hkeeps.buffers_le) ((hkeeps.backing_eq id hlt).trans hbacking)
      (hkeeps.buffers_eq ▸ hbound) (hkeeps.holds hplace) (by rw [hdirect₁]; omega) hholds
      (by rw [hdirect₁, htype, hxdtype, ← hmatches.dtype_eq, hdtype])
    rw [hdirect₁] at hset
    have hrun := Direct.runFrom_store hrank hdirect (by rw [← hmatches.dtype_eq, hdtype]) hx hset
    refine @Reaches.follows _ _ _ _ _ _ _ _ () _ (hreaches₁.trans hreaches₂) ?_ ?_
    · rw [Context.store, Action.runFrom_onHeap, executingAt, hrun]
      simp only [executingAt, Link.write, hdirect₁, hlog₁]
    · intro cell hmem
      rw [Value.cells_of_rank_zero hrank hdirect, List.mem_singleton] at hmem
      exact .inr hmem

end Comparison

end StagedArrays
