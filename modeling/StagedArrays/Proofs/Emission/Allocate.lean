import StagedArrays.Proofs.Emission.Store

namespace StagedArrays

namespace DType

theorem two_le_size (dtype : DType) : 2 ≤ dtype.size := by cases dtype <;> decide

end DType

namespace Word

/-- What occupies a representable number of bytes can be counted by a signed
    word. -/
theorem signed_of_mul {n size bytes : Nat} (h : mul n size = .ok bytes) (hsize : 2 ≤ size) : Signed n := by
  rw [mul_eq_ok_iff] at h
  obtain ⟨rfl, hbound⟩ := h
  have hle := Nat.mul_le_mul_left n hsize
  rw [signed_iff]
  simp only [bound, UInt64.size] at hbound
  omega

end Word

namespace Link

/-- The moment after storage has been taken on both sides. Inside a loop body
    nothing is known of what the storage of the recording holds. -/
def allocate (l : Link) (dtype : DType) (size : Nat) (looping : Bool) : Link :=
  { l with
    direct := (l.direct.add (.zeros dtype size)).2
    log := l.log ++ if looping then [.opened ⟨l.direct.buffers.size⟩] else []
    backing := Function.update l.backing ⟨l.buffers⟩ (some ⟨l.direct.buffers.size⟩)
    agreed := fun cell => l.agreed cell ∧ (looping = true → cell.ref ≠ ⟨l.direct.buffers.size⟩)
    buffers := l.buffers + 1 }

end Link

namespace Comparison

variable {l l' : Link}

/-- Later, one more buffer is in use: it stands for storage that the direct
    execution has taken since, and all else is as before. -/
structure Fresh (l l' : Link) (other : HostRef) : Prop where
  size_eq : l'.direct.buffers.size = l.direct.buffers.size + 1
  get_eq : ∀ ref : HostRef, ref.index < l.direct.buffers.size → l'.direct.get ref = l.direct.get ref
  frame_eq : l'.running.frame = l.running.frame
  heap_size_eq : l'.running.heap.buffers.size = l.running.heap.buffers.size
  heap_get_eq : ∀ ref, ref ≠ other → l'.running.heap.get ref = l.running.heap.get ref
  heap_dtype_eq : (l'.running.heap.get other).dtype = (l.running.heap.get other).dtype
  heap_length_eq : (l'.running.heap.get other).length = (l.running.heap.get other).length
  backing_eq : l'.backing = Function.update l.backing ⟨l.buffers⟩ (some ⟨l.direct.buffers.size⟩)
  alike : l'.Alike ⟨l.direct.buffers.size⟩ other
  agreed_iff : ∀ cell : Cell, cell.ref.index ≠ l.direct.buffers.size → (l'.agreed cell ↔ l.agreed cell)
  log_eq : l'.log = l.log ∧ (∀ index, l'.agreed ⟨⟨l.direct.buffers.size⟩, index⟩) ∨
    l'.log = l.log ++ [.opened ⟨l.direct.buffers.size⟩]
  registers_eq : l'.registers = l.registers
  buffers_eq : l'.buffers = l.buffers + 1

namespace Fresh

variable {other : HostRef}

/-- A fresh piece of storage adds one opening to the log, that of the new
    buffer. -/
theorem opened_cases (h : Fresh l l' other) {ref : HostRef} (hopened : .opened ref ∈ l'.log) :
    .opened ref ∈ l.log ∨ ref = ⟨l.direct.buffers.size⟩ := by
  rcases h.log_eq with ⟨heq, -⟩ | heq
  · exact .inl (heq ▸ hopened)
  · rw [heq, List.mem_append, List.mem_singleton] at hopened
    exact hopened.imp_right fun h => by cases h; rfl

/-- What was in the log is so after an allocation. Logs only grow. -/
theorem mem_log_of_mem (h : Fresh l l' other) {access : Access} (hmem : access ∈ l.log) : access ∈ l'.log := by
  rcases h.log_eq with ⟨heq, -⟩ | heq
  · exact heq ▸ hmem
  · exact heq ▸ List.mem_append_left _ hmem

/-- An allocation writes into nothing that existed before it, so that each write
    in the log was there before. -/
theorem mem_log_of_stored (h : Fresh l l' other) {cell : Cell} (hstored : .stored cell ∈ l'.log) :
    .stored cell ∈ l.log := by
  rcases h.log_eq with ⟨heq, -⟩ | heq
  · exact heq ▸ hstored
  · rw [heq, List.mem_append, List.mem_singleton] at hstored
    exact hstored.resolve_right fun h => by cases h

/-- The buffers other than the new one stand to each other as before the
    allocation. -/
theorem alike_of_ne (h : Fresh l l' other) {ref found : HostRef} (halike : l.Alike ref found)
    (hne : found ≠ other) : l'.Alike ref found where
  direct_lt := by
    rw [h.size_eq]
    exact Nat.lt_succ_of_lt halike.direct_lt
  running_lt := h.heap_size_eq ▸ halike.running_lt
  dtype_eq := by rw [h.heap_get_eq found hne, h.get_eq ref halike.direct_lt, halike.dtype_eq]
  length_eq := by rw [h.heap_get_eq found hne, h.get_eq ref halike.direct_lt, halike.length_eq]
  signed := by
    rw [h.get_eq ref halike.direct_lt]
    exact halike.signed
  get_eq index hagreed := by
    rw [h.heap_get_eq found hne, h.get_eq ref halike.direct_lt]
    exact halike.get_eq index ((h.agreed_iff _ (Nat.ne_of_lt halike.direct_lt)).mp hagreed)

variable [ArrayLibrary] {c : Comparison} {declaration : BufferDeclaration}

/-- Storage that is to agree was so before, or is the new one. Invariants over
    pairs are extended along this split. -/
theorem paired_cases (h : Fresh l l' other) {ref found : HostRef}
    (hbound : c.Bound l declaration other) (hid : declaration.id = ⟨l.buffers⟩)
    (hpaired : c.Paired l' ref found) :
    (ref = ⟨l.direct.buffers.size⟩ ∧ found = other) ∨ (found ≠ other ∧ c.Paired l ref found) := by
  rcases hpaired with ⟨id, base, hbacking, hfound⟩ | ⟨rfl, hlt⟩
  · rw [h.frame_eq] at hfound
    by_cases heq : id = ⟨l.buffers⟩
    · subst heq
      rw [h.backing_eq, Function.update_self, Option.some.injEq] at hbacking
      rw [← hid, hbound.bound] at hfound
      cases hfound
      exact .inl ⟨hbacking.symm, rfl⟩
    · rw [h.backing_eq, Function.update_of_ne heq] at hbacking
      refine .inr ⟨?_, .inl ⟨id, base, hbacking, hfound⟩⟩
      rintro rfl
      exact heq ((hbound.alone id base hfound).trans hid)
  · refine .inr ⟨?_, .inr ⟨rfl, hlt⟩⟩
    rintro rfl
    exact Nat.not_lt_of_le hbound.originals_le hlt

/-- If a call has bound the declaration to a buffer of its own, then an
    allocation leads to a link that holds this buffer beside the new one. -/
theorem leads (h : Fresh l l' other) (hbound : c.Bound l declaration other)
    (hid : declaration.id = ⟨l.buffers⟩) : c.Leads l l' := by
  refine ⟨⟨?_, ?_, ?_, ?_, ?_, ?_, ?_, ?_, ?_⟩, ?_⟩
  · rw [h.frame_eq]
  · intro id _
    rw [h.frame_eq]
  · intro id hlt
    rw [h.backing_eq, Function.update_of_ne]
    rintro rfl
    exact Nat.lt_irrefl _ hlt
  · exact Nat.le_of_eq h.registers_eq.symm
  · rw [h.buffers_eq]
    exact Nat.le_succ _
  · rw [h.size_eq]
    exact Nat.le_succ _
  · intro ref hlt
    rw [h.get_eq ref hlt]
  · intro ref hlt
    rw [h.get_eq ref hlt]
  · intro cell hlt
    exact (h.agreed_iff cell (Nat.ne_of_lt hlt)).mpr
  · intro declaration' _ _ hle other' base hget
    refine h.heap_get_eq other' ?_
    rintro rfl
    rw [hbound.alone _ base hget, hid, h.buffers_eq] at hle
    exact Nat.not_succ_le_self _ hle

/-- Taking storage on both sides keeps what holds between them. Old pairs are
    untouched, and the new one holds zeros. -/
theorem sound (h : Fresh l l' other) (hsound : c.Sound l) (hbound : c.Bound l declaration other)
    (hid : declaration.id = ⟨l.buffers⟩) : c.Sound l' := by
  refine ⟨?_, ?_, ?_, ?_, ?_, ?_, ?_, ?_⟩
  · intro ref found hpaired
    rcases h.paired_cases hbound hid hpaired with ⟨rfl, rfl⟩ | ⟨hne, hpaired⟩
    · exact h.alike
    · exact h.alike_of_ne (hsound.alike ref found hpaired) hne
  · intro ref found ref' found' hpaired hpaired'
    rcases h.paired_cases hbound hid hpaired with ⟨rfl, rfl⟩ | ⟨hne, hpaired⟩ <;>
      rcases h.paired_cases hbound hid hpaired' with ⟨rfl, rfl⟩ | ⟨hne', hpaired'⟩
    · simp
    · have hlt := (hsound.alike ref' found' hpaired').direct_lt
      refine iff_of_false ?_ hne'.symm
      rintro rfl
      exact Nat.lt_irrefl _ hlt
    · have hlt := (hsound.alike ref found hpaired).direct_lt
      refine iff_of_false ?_ hne
      rintro rfl
      exact Nat.lt_irrefl _ hlt
    · exact hsound.paired ref found ref' found' hpaired hpaired'
  · intro declaration' hmem hown
    obtain ⟨other', hbound', hle, hlt, hdtype, hlength, halone⟩ := hsound.locals declaration' hmem hown
    refine ⟨other', h.frame_eq ▸ hbound', hle, h.heap_size_eq ▸ hlt, ?_, ?_, h.frame_eq ▸ halone⟩
    · by_cases heq : other' = other
      · rw [heq, h.heap_dtype_eq, ← heq, hdtype]
      · rw [h.heap_get_eq other' heq, hdtype]
    · by_cases heq : other' = other
      · rw [heq, h.heap_length_eq, ← heq, hlength]
      · rw [h.heap_get_eq other' heq, hlength]
  · intro ref hopened
    rw [h.size_eq]
    rcases h.opened_cases hopened with hopened | rfl
    · obtain ⟨hle, hlt⟩ := hsound.opened ref hopened
      exact ⟨hle, Nat.lt_succ_of_lt hlt⟩
    · exact ⟨hsound.originals_le, Nat.lt_succ_self _⟩
  · intro cell hstored
    rw [h.size_eq]
    exact Nat.lt_succ_of_lt (hsound.stored cell (h.mem_log_of_stored hstored))
  · rw [h.size_eq]
    exact Nat.le_succ_of_le hsound.originals_le
  · intro cell hsettled
    by_cases hnew : cell.ref = ⟨l.direct.buffers.size⟩
    · rcases h.log_eq with ⟨-, hagreed⟩ | heq
      · have hcell := hagreed cell.index
        rwa [← hnew] at hcell
      · have hopened : .opened cell.ref ∈ l'.log := by
          rw [heq, hnew]
          exact List.mem_append_right _ List.mem_cons_self
        have hlt := hsound.stored cell (h.mem_log_of_stored (hsettled hopened))
        rw [hnew] at hlt
        exact (Nat.lt_irrefl _ hlt).elim
    · refine (h.agreed_iff cell fun heq => hnew (congrArg HostRef.mk heq)).mpr (hsound.logged cell ?_)
      exact fun hopened => h.mem_log_of_stored (hsettled (h.mem_log_of_mem hopened))
  · rcases h.log_eq with ⟨heq, -⟩ | heq
    · exact heq ▸ hsound.storedBeforeLoaded
    · rw [heq]
      exact hsound.storedBeforeLoaded.append (by simp)

/-- The new buffer stands for the new storage, from its start on. -/
theorem matches_fresh (h : Fresh l l' other) (hbound : c.Bound l declaration other)
    (hid : declaration.id = ⟨l.buffers⟩) {layout : Layout} (hformed : layout.Formed)
    (hsize : layout.memorySize = .ok declaration.length) :
    l'.Matches (.emittedBuffer declaration.dtype layout declaration.id)
      ⟨declaration.dtype, layout, .host ⟨l.direct.buffers.size⟩ 0⟩ := by
  have hdtype : (l'.running.heap.get other).dtype = declaration.dtype := by
    rw [h.heap_dtype_eq, hbound.dtype_eq]
  have hlength : (l'.running.heap.get other).length = declaration.length := by
    rw [h.heap_length_eq, hbound.length_eq]
  refine ⟨rfl, rfl, hformed, ?_, ?_, other, 0, 0, declaration.length, ?_, Link.holds_constant.mpr rfl, rfl,
    hsize, ?_, ?_⟩
  · rw [hid, h.buffers_eq]
    exact Nat.lt_succ_self _
  · rw [hid, h.backing_eq, Function.update_self]
  · rw [h.frame_eq]
    exact hbound.bound
  · exact Nat.le_of_eq (by rw [← h.alike.length_eq, hlength, Nat.zero_add])
  · rw [← h.alike.dtype_eq, hdtype]

end Fresh

variable [ArrayLibrary] {c : Comparison} {excused : ValueError → Prop} {builder : FunctionBuilder}

/-- A recorded allocation declares the next buffer of the function. -/
theorem emits_allocate (dtype : DType) (layout : Layout) :
    c.Emits builder (Emit.allocate dtype layout) fun value f =>
      ∃ size, layout.memorySize = .ok size ∧ Word.Signed size ∧ value = .emittedBuffer dtype layout ⟨builder.buffers.size⟩ ∧
        f = { buffers := [⟨⟨builder.buffers.size⟩, dtype, size, .own⟩] } := by
  refine .get_bind (.builder_bind ?_)
  dsimp only
  split
  · exact .fail
  · refine .lift_bind fun used _ => .lift_bind fun size hsize => .lift_bind fun requested hrequested =>
      .lift_bind fun needed _ => ?_
    split
    · exact .fail
    · rw [FunctionBuilder.newBuffer_eq_extend]
      have hsize : layout.memorySize = .ok size := liftM_fault_eq_ok_iff.mp hsize
      have hrequested : Word.mul size dtype.size = .ok requested := liftM_fault_eq_ok_iff.mp hrequested
      have hsigned := Word.signed_of_mul hrequested dtype.two_le_size
      refine .bind (@Emits.setBuilder _ _ _ _ (fun _ f =>
        f = { buffers := [⟨⟨builder.buffers.size⟩, dtype, size, .own⟩] }) ⟨?_, ?_, ?_, ?_⟩ rfl) ?_
      · intro k declaration hget
        cases k with
        | zero =>
          cases hget
          rfl
        | succ k => cases hget
      · simp
      · intro declaration hmem
        rw [List.mem_singleton] at hmem
        subst hmem
        exact hsigned
      · simp [blockSymbols]
      · rintro _ _ rfl
        exact .pure ⟨size, hsize, hsigned, rfl, by rw [Fragment.append_empty]⟩

/-- Nothing is known against storage that has not been taken yet. It does not
    occur in the log. -/
theorem Sound.agreed_fresh (hsound : c.Sound l) (index : Nat) :
    l.agreed ⟨⟨l.direct.buffers.size⟩, index⟩ :=
  hsound.logged _ fun hopened => (Nat.lt_irrefl _ (hsound.opened _ hopened).2).elim

/-- Storage taken on both sides is fresh. The call has had its own since it
    began, and has not used it yet. -/
theorem Sound.fresh_allocate (hsound : c.Sound l) {declaration : BufferDeclaration} {other : HostRef}
    (hbound : c.Bound l declaration other) (hsigned : Word.Signed declaration.length) {looping : Bool}
    (hzeros : looping = false →
      l.running.heap.get other = .zeros declaration.dtype declaration.length) :
    Fresh l (l.allocate declaration.dtype declaration.length looping) other where
  size_eq := by simp [Link.allocate]
  get_eq ref hlt := Heap.get_add_of_lt _ _ hlt
  frame_eq := rfl
  heap_size_eq := rfl
  heap_get_eq _ _ := rfl
  heap_dtype_eq := rfl
  heap_length_eq := rfl
  backing_eq := rfl
  alike := by
    have hget : (l.direct.add (.zeros declaration.dtype declaration.length)).2.get ⟨l.direct.buffers.size⟩ =
        .zeros declaration.dtype declaration.length := Heap.get_add_self _ _
    refine ⟨by simp [Link.allocate], hbound.running_lt, ?_, ?_, ?_, ?_⟩
    · simp only [Link.allocate, hget]
      exact hbound.dtype_eq
    · simp only [Link.allocate, hget, HostBuffer.length_zeros]
      exact hbound.length_eq
    · simpa only [Link.allocate, hget, HostBuffer.length_zeros] using hsigned
    · intro index hagreed
      simp only [Link.allocate, hget]
      cases looping with
      | true => exact (hagreed.2 rfl rfl).elim
      | false => rw [hzeros rfl]
  agreed_iff cell hne := by
    simp only [Link.allocate, and_iff_left_iff_imp]
    rintro - - heq
    exact hne (congrArg HostRef.index heq)
  log_eq := by
    cases looping with
    | true => exact .inr rfl
    | false =>
      exact .inl ⟨by simp [Link.allocate], fun index => ⟨hsound.agreed_fresh index, by simp⟩⟩
  registers_eq := rfl
  buffers_eq := rfl

/-- A buffer declared by the piece just recorded is one of the finished
    function's. -/
theorem mem_declarations {f : Fragment} (h : (builder.extend f).buffers.toList <+: c.declarations)
    {declaration : BufferDeclaration} (hmem : declaration ∈ f.buffers) : declaration ∈ c.declarations := by
  refine h.subset ?_
  rw [FunctionBuilder.buffers_extend, Array.toList_append]
  exact List.mem_append_right _ hmem

/-- What a direct allocation takes on the host while the emitted code is
    executed alongside. It is a new buffer, of zeros. -/
theorem runFrom_allocate_executingAt {dtype : DType} {layout : Layout} {size : Nat}
    (h : layout.memorySize = .ok size) (hroom : dtype.reserve size = .ok ()) :
    (Context.compute.allocate dtype layout).runFrom (c.executingAt l) =
      (.ok ⟨dtype, layout, .host ⟨l.direct.buffers.size⟩ 0⟩,
        { c.executingAt l with heap := (l.direct.add (.zeros dtype size)).2 }) := by
  rw [Context.allocate, Action.runFrom_onHeap, executingAt, Direct.runFrom_allocate h hroom]

/-- Where there is no room for it, the direct run ends with a fault. The emitted
    call does so on entry. -/
theorem runFrom_allocate_executingAt_of_full {dtype : DType} {layout : Layout} {size : Nat} {fault : Fault}
    (h : layout.memorySize = .ok size) (hroom : dtype.reserve size = .error fault) :
    (Context.compute.allocate dtype layout).runFrom (c.executingAt l) =
      (.error (.fault fault), c.executingAt l) := by
  rw [Context.allocate, Action.runFrom_onHeap, executingAt, Direct.runFrom_allocate_of_full h hroom]

/-- A recorded allocation is followed by an allocation. In a loop it is noted,
    since the call has one buffer for all passes. -/
theorem records_allocation (looping : Bool) (dtype : DType) {layout : Layout} (hformed : layout.Formed) :
    c.Records builder (Program.allocation looping dtype layout) fun value f =>
      (builder.extend f).buffers.toList <+: c.declarations → ∀ l, l.At builder → c.Sound l →
        (looping = false → c.Untouched l) →
          c.Follows excused l f (Program.allocation looping dtype layout) (·.Matches value ·) := by
  refine .activeContext_bind (.bind (emits_allocate dtype layout).records ?_)
  rintro _ _ ⟨size, hsize, hsigned, rfl, rfl⟩
  have hnote : Program.noteFresh looping (.emittedBuffer dtype layout ⟨builder.buffers.size⟩) =
      Program.note [] := by cases looping <;> rfl
  rw [hnote]
  refine .note_bind [] (.pure ?_)
  rw [Fragment.append_empty]
  intro hprefix l hat hsound huntouched
  have hmem := mem_declarations hprefix List.mem_cons_self
  obtain ⟨other, hbound⟩ := hsound.locals _ hmem rfl
  have hid : (⟨builder.buffers.size⟩ : BufferId) = ⟨l.buffers⟩ := by rw [hat.buffers_eq]
  have hfresh := hsound.fresh_allocate hbound hsigned fun hlooping =>
    huntouched hlooping _ hmem rfl (Nat.le_of_eq hat.buffers_eq) other 0 hbound.bound
  have hreaches : c.Reaches l { buffers := [⟨⟨builder.buffers.size⟩, dtype, size, .own⟩] }
      (l.allocate dtype size looping) :=
    ⟨hfresh.leads hbound hid, hfresh.sound hsound hbound hid, rfl, rfl, rfl⟩
  rcases dtype.reserve_cases size with hroom | hroom
  · refine @Reaches.follows _ _ _ _ _ _ _ _ ⟨dtype, layout, .host ⟨l.direct.buffers.size⟩ 0⟩ _ hreaches ?_ ?_
    · rw [Program.allocation, Stateful.runFrom_bind_of_ok (runFrom_activeContext_executingAt l)]
      rw [Stateful.runFrom_bind_of_ok (runFrom_allocate_executingAt hsize hroom)]
      cases looping <;> rfl
    · exact hfresh.matches_fresh hbound hid hformed hsize
  · -- executed directly, an allocation without room faults where it stands
    have hfaults : (Program.allocation looping dtype layout).runFrom (c.executingAt l) =
        (.error (.fault .capacityOverflow), c.executingAt l) := by
      rw [Program.allocation, Stateful.runFrom_bind_of_ok (runFrom_activeContext_executingAt l)]
      exact Stateful.runFrom_bind_of_error (runFrom_allocate_executingAt_of_full hsize hroom) _
    exact .of_fault hfaults

end Comparison

end StagedArrays
