import StagedArrays.Algebra.Scalar
import StagedArrays.Proofs.Emission.Allocate

namespace StagedArrays

namespace HostBuffer

theorem get?_of_length_le {buffer : HostBuffer} {index : Nat} (h : buffer.length ≤ index) :
    buffer.get? index = none := Array.getElem?_eq_none h

end HostBuffer

namespace Link

/-- The moment after storage for one element has been taken and set to zero on
    both sides. -/
def allocateZero (l : Link) (dtype : DType) (other : HostRef) (buffer buffer' : HostBuffer) : Link :=
  { l with
    direct := (l.direct.add (.zeros dtype 1)).2.put ⟨l.direct.buffers.size⟩ buffer
    running := ⟨l.running.frame, l.running.heap.put other buffer'⟩
    backing := Function.update l.backing ⟨l.buffers⟩ (some ⟨l.direct.buffers.size⟩)
    buffers := l.buffers + 1 }

end Link

namespace Comparison

variable [ArrayLibrary] {c : Comparison} {excused : ValueError → Prop} {builder : FunctionBuilder} {l : Link}

/-- Storage that is set to zero on both sides agrees whatever it held. In a loop
    the call has used it before. -/
theorem Sound.fresh_allocateZero (hsound : c.Sound l) {declaration : BufferDeclaration} {other : HostRef}
    (hbound : c.Bound l declaration other) (hlength : declaration.length = 1) {x : Numeric}
    {buffer buffer' : HostBuffer} (hset : (HostBuffer.zeros declaration.dtype 1).set 0 x = .ok buffer)
    (hset' : (l.running.heap.get other).set 0 x = .ok buffer') :
    Fresh l (l.allocateZero declaration.dtype other buffer buffer') other := by
  have hlt : (⟨l.direct.buffers.size⟩ : HostRef).index <
      (l.direct.add (.zeros declaration.dtype 1)).2.buffers.size := by simp
  have hfresh : (l.allocateZero declaration.dtype other buffer buffer').direct.get ⟨l.direct.buffers.size⟩ =
      buffer := Heap.get_put_self _ _ hlt
  have hother : (l.allocateZero declaration.dtype other buffer buffer').running.heap.get other = buffer' :=
    Heap.get_put_self _ _ hbound.running_lt
  have hdtype : buffer.dtype = declaration.dtype := HostBuffer.dtype_eq_of_set hset
  have hone : buffer.length = 1 := by rw [HostBuffer.length_eq_of_set hset, HostBuffer.length_zeros]
  have hone' : (l.running.heap.get other).length = 1 := by rw [hbound.length_eq, hlength]
  refine ⟨by simp [Link.allocateZero], ?_, rfl, by simp [Link.allocateZero], ?_, ?_, ?_, rfl, ?_, ?_, ?_,
    rfl, rfl⟩
  · intro ref href
    have hne : ref ≠ ⟨l.direct.buffers.size⟩ := by
      rintro rfl
      exact Nat.lt_irrefl _ href
    rw [Link.allocateZero, Heap.get_put_of_ne _ _ hne, Heap.get_add_of_lt _ _ href]
  · exact fun ref hne => Heap.get_put_of_ne _ _ hne
  · rw [hother, HostBuffer.dtype_eq_of_set hset']
  · rw [hother, HostBuffer.length_eq_of_set hset']
  · refine ⟨by simp [Link.allocateZero], by simpa [Link.allocateZero] using hbound.running_lt, ?_, ?_, ?_, ?_⟩
    · rw [hother, hfresh, HostBuffer.dtype_eq_of_set hset', hbound.dtype_eq, hdtype]
    · rw [hother, hfresh, HostBuffer.length_eq_of_set hset', hone', hone]
    · rw [hfresh, hone, Word.signed_iff]
      decide
    · intro index _
      rw [hother, hfresh, HostBuffer.get?_of_set hset, HostBuffer.get?_of_set hset']
      split
      · rfl
      · next hne =>
        rw [HostBuffer.get?_of_length_le (by omega), HostBuffer.get?_of_length_le]
        rw [HostBuffer.length_zeros]
        omega
  · exact fun _ _ => Iff.rfl
  · exact .inl ⟨rfl, hsound.agreed_fresh⟩

/-- A store of an immediate to the start of a recorded buffer is one
    instruction. -/
theorem emits_store_constant (dtype : DType) (id : BufferId) (x : Numeric) :
    c.Emits builder (Emit.store (.emittedBuffer dtype .scalar id) (.constant x)) fun _ f =>
      f = { code := [.store id (.constant (.ofIndex 0)) (.constant x)] } := by
  refine .lift_bind fun _ _ => .lift_bind fun _ _ => ?_
  refine @Emits.bind _ _ _ _ _ _ _ (fun operand f => operand = .constant x ∧ f = .empty) _
    (.lift_bind fun _ _ => .pure ⟨rfl, rfl⟩) ?_
  rintro _ _ ⟨rfl, rfl⟩
  exact .emit (by simp [Instruction.symbols]) (by rw [Fragment.empty_append])

/-- Recorded storage that is set to zero is followed by storage that holds
    zero. -/
theorem records_zeroScalar (dtype : DType) :
    c.Records builder (Scalar.allocate dtype) fun s f =>
      s.value.isAddressable = true ∧ s.value.dtype = dtype ∧
        ((builder.extend f).buffers.toList <+: c.declarations → ∀ l, l.At builder → c.Sound l →
          c.Follows excused l f (Scalar.allocate dtype) fun l' s' =>
            l'.Matches s.value s'.value ∧ l'.Readable s'.value) := by
  refine .activeContext_bind (.bind (emits_allocate dtype .scalar).records ?_)
  rintro _ _ ⟨size, hsize, hsigned, rfl, rfl⟩
  cases hsize
  refine .lift_bind fun s hs => ?_
  have hs : s.value = .emittedBuffer dtype .scalar ⟨builder.buffers.size⟩ := Scalar.ofValue_eq_ok.mp hs
  refine @Records.bind _ _ _ _ _ _ _ (fun _ f => f = { code := [.store ⟨builder.buffers.size⟩ (.constant (.ofIndex 0))
    (.constant (.zero dtype))] }) _ (.activeContext_bind ?_) ?_
  · rw [hs]
    exact (emits_store_constant dtype _ (.zero dtype)).records
  · rintro _ _ rfl
    refine .pure ⟨by rw [hs]; rfl, by rw [hs]; rfl, ?_⟩
    rw [Fragment.append_empty]
    intro hprefix l hat hsound
    have hmem := mem_declarations hprefix List.mem_cons_self
    obtain ⟨other, hbound⟩ := hsound.locals _ hmem rfl
    have hid : (⟨builder.buffers.size⟩ : BufferId) = ⟨l.buffers⟩ := by rw [hat.buffers_eq]
    have hdtype : (Numeric.zero dtype).dtype = dtype := Numeric.dtype_zero dtype
    obtain ⟨buffer, hset⟩ := @HostBuffer.exists_set (.zeros dtype 1) 0 _ hdtype (by simp)
    obtain ⟨buffer', hset'⟩ := HostBuffer.exists_set
      (hdtype.trans hbound.dtype_eq.symm) (by rw [hbound.length_eq]; exact Nat.one_pos)
    have hfresh := hsound.fresh_allocateZero hbound rfl hset hset'
    have hrun : (runBlock c.call [.store ⟨builder.buffers.size⟩ (.constant (.ofIndex 0))
        (.constant (.zero dtype))]).runFrom l.running =
          (.ok (), ⟨l.running.frame, l.running.heap.put other buffer'⟩) := by
      have haddress := @Link.address_eq_ok l _ _ _ _ 0 hbound.bound
        (Link.holds_constant.mpr rfl) (by rw [Word.signed_iff]; decide)
      simp [runBlock_singleton, Instruction.run, Stateful.runFrom_bind, haddress, Frame.operand,
        HeapM.runFrom_write hset']
    refine @Reaches.follows _ _ _ _ _ _ _ _ ⟨⟨dtype, .scalar, .host ⟨l.direct.buffers.size⟩ 0⟩, rfl⟩ _
      ⟨hfresh.leads hbound hid, hfresh.sound hsound hbound hid, rfl, rfl, hrun⟩ ?_ ⟨?_, ?_⟩
    · have hget : (l.direct.add (.zeros dtype 1)).2.get ⟨l.direct.buffers.size⟩ = .zeros dtype 1 :=
        Heap.get_add_self _ _
      have hstore := @Direct.runFrom_store _
        ⟨dtype, .scalar, .host ⟨l.direct.buffers.size⟩ 0⟩ (.constant (.zero dtype)) _ _ _ _
        rfl rfl hdtype (Value.reads_constant rfl rfl) (hget.symm ▸ hset)
      rw [Scalar.allocate, Stateful.runFrom_bind_of_ok (runFrom_activeContext_executingAt l),
        Stateful.runFrom_bind_of_ok (runFrom_allocate_executingAt rfl dtype.reserve_one)]
      have hscalar : Scalar.ofValue ⟨dtype, .scalar, .host ⟨l.direct.buffers.size⟩ 0⟩ =
          .ok ⟨⟨dtype, .scalar, .host ⟨l.direct.buffers.size⟩ 0⟩, rfl⟩ := rfl
      have hactive : ∀ heap, (Action.activeContext : Action AccessLog Context).runFrom
          { c.executingAt l with heap := heap } = (.ok .compute, { c.executingAt l with heap := heap }) :=
        fun heap => Action.runFrom_activeContext c.executingActive
      simp only [hscalar, Scalar.store, Stateful.runFrom_bind, Stateful.runFrom_liftM, liftM_layoutError_ok,
        hactive, Context.store, Action.runFrom_onHeap, Scalar.ofNumeric, hstore]
      rfl
    · rw [hs]
      exact hfresh.matches_fresh hbound hid rfl rfl
    · intro cell hcell
      rw [Value.cells_of_rank_zero rfl rfl,
        List.mem_singleton] at hcell
      rw [hcell]
      exact hsound.agreed_fresh 0

end Comparison

end StagedArrays
