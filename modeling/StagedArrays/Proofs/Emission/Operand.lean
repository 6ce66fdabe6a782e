import StagedArrays.Proofs.Emission.Following
import StagedArrays.Proofs.Storage.Direct

namespace StagedArrays

namespace Value

/-- A host value covers the elements at all coordinates of its layout, and no
    other elements. -/
theorem mem_cells {value : Value} {ref : HostRef} {offset : Nat} {indices : List Nat}
    (hdata : value.data = .host ref offset) (h : Layout.InBounds indices value.layout.extents) :
    ⟨ref, offset + value.layout.place indices⟩ ∈ value.cells := by
  have hhost : value.host? = some (ref, offset) := by rw [host?, hdata]
  rw [cells, hhost]
  exact List.mem_map.mpr ⟨indices, Layout.mem_coordinates.mpr h, rfl⟩

/-- A value of rank 0 on the host covers the element it starts at. Loads and
    stores are about this one. -/
theorem cells_of_rank_zero {value : Value} {ref : HostRef} {offset : Nat}
    (hrank : value.layout.rank = 0) (hdata : value.data = .host ref offset) :
    value.cells = [⟨ref, offset⟩] := by
  obtain ⟨dtype, ⟨extents, increments⟩, data⟩ := value
  have hextents : extents = [] := List.length_eq_zero_iff.mp hrank
  subst hextents
  cases hdata
  simp [cells, host?, Layout.coordinates_eq, Layout.rowMajor, Layout.place]

/-- A value of rank 0 in storage covers the element that it lies at. It covers
    no other. -/
theorem mem_cells_of_rank_zero {value : Value} {ref : HostRef} {offset : Nat}
    (hrank : value.layout.rank = 0) (hdata : value.data = .host ref offset) :
    ⟨ref, offset⟩ ∈ value.cells := by
  rw [cells_of_rank_zero hrank hdata]
  exact List.mem_singleton_self _

end Value

namespace RunM

@[simp]
theorem runFrom_operand (operand : Operand) (running : Running) :
    (RunM.operand operand).runFrom running = (liftM (running.frame.operand operand), running) := rfl

@[simp]
theorem runFrom_address (buffer : BufferId) (offset : Operand) (running : Running) :
    (RunM.address buffer offset).runFrom running = (running.frame.address buffer offset, running) := rfl

@[simp]
theorem runFrom_assign (register : RegisterId) (x : Numeric) (running : Running) :
    (RunM.assign register x).runFrom running =
      (.ok (), ⟨running.frame.assign register x, running.heap⟩) := rfl

@[simp]
theorem runFrom_onHeap {α : Type} (action : HeapM α) (running : Running) :
    (RunM.onHeap action).runFrom running =
      ((action.runFrom running.heap).1, ⟨running.frame, (action.runFrom running.heap).2⟩) := rfl

end RunM

namespace Link

/-- Two moments that differ in the registers at most, and in how much is in
    use. -/
structure SameStorage (l l' : Link) : Prop where
  direct_eq : l'.direct = l.direct
  log_eq : l'.log = l.log
  heap_eq : l'.running.heap = l.running.heap
  buffers_eq : l'.running.frame.buffers = l.running.frame.buffers
  backing_eq : l'.backing = l.backing
  agreed_eq : l'.agreed = l.agreed

/-- The moment after an instruction has put its result into the next
    register. -/
def assign (l : Link) (x : Numeric) : Link :=
  { l with
    running := ⟨l.running.frame.assign ⟨l.registers⟩ x, l.running.heap⟩
    registers := l.registers + 1 }

theorem sameStorage_assign (l : Link) (x : Numeric) : l.SameStorage (l.assign x) := by
  constructor <;> rfl

/-- A register that is in use has an index of its own. Filling the next one does
    not reach it. -/
theorem getElem?_assign_of_lt (frame : Frame) (x : Numeric) {id : RegisterId} {next : Nat}
    (h : id.index < next) : (frame.assign ⟨next⟩ x).registers[id]? = frame.registers[id]? := by
  have hne : ¬(⟨next⟩ : RegisterId) = id := by
    rintro rfl
    exact Nat.lt_irrefl _ h
  simp [Frame.assign, Std.HashMap.getElem?_insert, hne]

/-- Filling the next register keeps what the earlier registers hold. -/
theorem keeps_assign (l : Link) (x : Numeric) : l.Keeps (l.assign x) where
  buffers_eq := rfl
  registers_eq _ hlt := getElem?_assign_of_lt _ _ hlt
  backing_eq _ _ := rfl
  registers_le := Nat.le_succ _
  buffers_le := Nat.le_refl _
  size_le := Nat.le_refl _
  dtype_eq _ _ := rfl
  length_eq _ _ := rfl
  agreed _ _ h := h

theorem holds_constant {l : Link} {x y : Numeric} : l.Holds (.constant x) y ↔ x = y := by
  simp [Holds, Frame.operand]

/-- The next register holds what was just put there. -/
theorem holds_assign (l : Link) (x : Numeric) : (l.assign x).Holds (.register ⟨l.registers⟩) x := by
  refine ⟨?_, ?_⟩
  · rintro id heq
    cases heq
    exact Nat.lt_succ_self _
  · simp [assign, Frame.operand, Frame.assign]

/-- An operand in use leads to the element that it stands for. The sum of base
    and offset is a word, as it was directly. -/
theorem address_eq_ok {l : Link} {id : BufferId} {place : Operand} {other : HostRef} {base index : Nat}
    (hbound : l.running.frame.buffers[id]? = some (other, base)) (hplace : l.Holds place (.ofIndex index))
    (hsigned : Word.Signed (base + index)) :
    l.running.frame.address id place = .ok (other, base + index) := by
  have hadd : Word.add base index = .ok (base + index) := Word.add_eq_ok_iff.mpr ⟨rfl, hsigned.lt_bound⟩
  simp only [Frame.address, hbound, hplace.2]
  change ((liftM (Numeric.ofIndex index).asIndex : Outcome Nat) >>= _) = _
  rw [Numeric.asIndex_ofIndex (hsigned.mono (Nat.le_add_left _ _))]
  change ((liftM (Word.add base index) : Outcome Nat) >>= _) = _
  rw [hadd]
  rfl

end Link

namespace Comparison

variable [ArrayLibrary] {c : Comparison} {α : Type} {builder : FunctionBuilder} {l l' : Link}

/-- Soundness speaks of storage only. A link that differs in registers is as
    sound. -/
theorem Sound.sameStorage (h : c.Sound l) (hsame : l.SameStorage l') : c.Sound l' := by
  obtain ⟨direct, log, ⟨⟨registers, buffers⟩, heap⟩, backing, agreed, used, declared⟩ := l
  obtain ⟨direct', log', ⟨⟨registers', buffers'⟩, heap'⟩, backing', agreed', used', declared'⟩ := l'
  obtain ⟨rfl, rfl, rfl, rfl, rfl, rfl⟩ := hsame
  refine ⟨?_, h.paired, ?_, h.opened, h.stored, h.originals_le, h.logged, h.storedBeforeLoaded⟩
  · intro ref other hpaired
    obtain ⟨hdirect, hrunning, hdtype, hlength, hsigned, hget⟩ := h.alike ref other hpaired
    exact ⟨hdirect, hrunning, hdtype, hlength, hsigned, hget⟩
  · intro declaration hmem hown
    obtain ⟨other, hbound, hle, hlt, hdtype, hlength, halone⟩ := h.locals declaration hmem hown
    exact ⟨other, hbound, hle, hlt, hdtype, hlength, halone⟩

/-- An instruction that puts a result into the next register, and does nothing
    else. -/
theorem computes_assign {instruction : Instruction} {x : Numeric} {post : Link → Prop} (hsound : c.Sound l)
    (hrun : (instruction.run c.call).runFrom l.running = (.ok (), (l.assign x).running))
    (h : post (l.assign x)) : c.Computes l { code := [instruction], registers := 1 } post := by
  refine ⟨l.assign x, rfl, rfl, rfl, ⟨⟨l.keeps_assign x, fun _ _ _ _ _ _ _ => rfl⟩, ?_, rfl, rfl, ?_⟩, h⟩
  · exact hsound.sameStorage (l.sameStorage_assign x)
  · rw [runBlock_singleton, hrun]

/-- The contents of a rank-0 value that is readable, as the direct execution
    reads them and as the recorded part computes them. -/
theorem emits_operand (recorded : Value) :
    c.Emits builder (Emit.operand recorded) fun operand f =>
      recorded.layout.rank = 0 ∧ ∀ l direct, l.At builder → c.Sound l → l.Matches recorded direct →
        l.Readable direct → ∃ x, direct.Reads l.direct x ∧
          x.dtype = direct.dtype ∧ c.Computes l f (·.Holds operand x) := by
  unfold Emit.operand
  refine .lift_bind fun _ hrank => ?_
  have hrank : recorded.layout.rank = 0 := by simpa using hrank
  obtain ⟨dtype, layout, data⟩ := recorded
  cases data with
  | host ref offset => exact .fail
  | constant x =>
    refine .pure ⟨hrank, ?_⟩
    rintro l ⟨dtype', layout', data'⟩ hat hsound ⟨rfl, rfl, -, hdata⟩ -
    cases data' <;> simp only [Link.DataMatches] at hdata
    obtain ⟨rfl, hdtype, -⟩ := hdata
    exact ⟨x, Value.reads_constant hrank rfl, hdtype, .pure hsound (Link.holds_constant.mpr rfl)⟩
  | register id =>
    refine .pure ⟨hrank, ?_⟩
    rintro l ⟨dtype', layout', data'⟩ hat hsound ⟨rfl, rfl, -, hdata⟩ -
    cases data' <;> simp only [Link.DataMatches] at hdata
    next y =>
    exact ⟨y, Value.reads_constant hrank rfl, hdata.2.1, .pure hsound hdata.1⟩
  | buffer id place =>
    refine .map (.emitWithOutput (by simp [Instruction.symbols]) ⟨hrank, ?_⟩)
    rintro l ⟨dtype', layout', data'⟩ hat hsound ⟨rfl, rfl, -, hdata⟩ hreadable
    cases data' <;> simp only [Link.DataMatches] at hdata
    next ref offset =>
    obtain ⟨-, hbacking, other, base, index, size, hbound, hplace, rfl, hsize, hle, hdtype⟩ := hdata
    have halike := hsound.alike ref other (.inl ⟨id, base, hbacking, hbound⟩)
    have hlt : base + index < (l.direct.get ref).length := by
      rw [Layout.memorySize_of_rank_zero hrank] at hsize
      cases hsize
      omega
    obtain ⟨x, hx, hxdtype⟩ := HostBuffer.exists_get? hlt
    have hagreed : l.agreed ⟨ref, base + index⟩ :=
      hreadable _ (Value.mem_cells_of_rank_zero hrank rfl)
    refine ⟨x, Value.reads_host hrank rfl hx, hxdtype.trans hdtype, ?_⟩
    rw [← hat.registers_eq]
    refine computes_assign hsound ?_ (l.holds_assign x)
    have haddress := Link.address_eq_ok hbound hplace (halike.signed.mono (Nat.le_of_lt hlt))
    have hx' : (l.running.heap.get other).get? (base + index) = some x := by
      rw [halike.get_eq _ hagreed, hx]
    simp [Instruction.run, Stateful.runFrom_bind, haddress, hx', Link.assign]

end Comparison

end StagedArrays
