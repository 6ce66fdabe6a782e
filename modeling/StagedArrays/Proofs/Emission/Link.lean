import StagedArrays.Code.Run
import StagedArrays.Proofs.Emission.Fragment
import StagedArrays.Proofs.Program.Basic

namespace StagedArrays

/-- A program executed directly, and the same program recorded by an emitter and
    run as part of a module. The buffers below `originals` were there before
    either began; `declarations` are the buffers of the finished function, and
    `call` is what its calls lead to. -/
structure Comparison [ArrayLibrary] where
  id : EmitterId
  emitter : Emitter
  recording : World AccessLog
  executing : World AccessLog
  call : String → HostFunction
  declarations : List BufferDeclaration
  originals : Nat
  inRange : id.index < recording.emitters.size
  recordingActive : recording.contexts.head? = some (.emitter id)
  executingActive : executing.contexts.head? = some .compute
  callSingle : call Kernel.singleDotSymbol = Kernel.singleDot
  callDouble : call Kernel.doubleDotSymbol = Kernel.doubleDot

/-- One moment of both executions: the heap and log of the direct one, the frame
    and heap of the other, the host buffer that each emitted buffer stands for
    at present, the elements known to agree, and how many registers and buffers
    the recorded part has used up. -/
structure Link where
  direct : Heap
  log : AccessLog
  running : Running
  backing : BufferId → Option HostRef
  agreed : Cell → Prop
  registers : Nat
  buffers : Nat

namespace Link

/-- Host storage of the direct execution has the shape of storage of the other
    one, and the same contents where they are known to agree. -/
structure Alike (l : Link) (ref other : HostRef) : Prop where
  direct_lt : ref.index < l.direct.buffers.size
  running_lt : other.index < l.running.heap.buffers.size
  dtype_eq : (l.running.heap.get other).dtype = (l.direct.get ref).dtype
  length_eq : (l.running.heap.get other).length = (l.direct.get ref).length
  signed : Word.Signed (l.direct.get ref).length
  get_eq : ∀ index, l.agreed ⟨ref, index⟩ →
    (l.running.heap.get other).get? index = (l.direct.get ref).get? index

/-- An operand that the recorded part may use, and the immediate it stands
    for. -/
def Holds (l : Link) (operand : Operand) (x : Numeric) : Prop :=
  (∀ id, operand = .register id → id.index < l.registers) ∧ l.running.frame.operand operand = .ok x

/-- Data of a recorded value stands for data of a value of the direct
    execution. -/
def DataMatches (l : Link) (dtype : DType) (layout : Layout) : (recorded direct : ValueData) → Prop
  | .constant x, .constant y => x = y ∧ y.dtype = dtype ∧ layout.rank = 0
  | .register id, .constant y => l.Holds (.register id) y ∧ y.dtype = dtype ∧ layout.rank = 0
  | .buffer id place, .host ref offset =>
    id.index < l.buffers ∧ l.backing id = some ref ∧
      ∃ other base index size, l.running.frame.buffers[id]? = some (other, base) ∧
        l.Holds place (.ofIndex index) ∧ offset = base + index ∧
        layout.memorySize = .ok size ∧ offset + size ≤ (l.direct.get ref).length ∧
        (l.direct.get ref).dtype = dtype
  | _, _ => False

/-- A recorded value stands for a value of the direct execution. Type and layout
    are the same, and where the data is agrees as far as it can be told. -/
structure Matches (l : Link) (recorded direct : Value) : Prop where
  dtype_eq : recorded.dtype = direct.dtype
  layout_eq : recorded.layout = direct.layout
  formed : direct.layout.Formed
  data : l.DataMatches direct.dtype direct.layout recorded.data direct.data

/-- The values in scope stand for each other, variable by variable. -/
def EnvMatches {n : Nat} (l : Link) (recorded direct : Env n) : Prop :=
  ∀ i, l.Matches (recorded i) (direct i)

/-- Everything a value covers agrees. Storage that a loop has taken is so only
    once it has been written. -/
def Readable (l : Link) (value : Value) : Prop := ∀ cell ∈ value.cells, l.agreed cell

end Link

namespace Comparison

variable [ArrayLibrary] (c : Comparison)

/-- Storage of the direct execution and storage of the other one that are to
    agree: what an emitted buffer stands for and is bound to, and what was there
    before. -/
def Paired (l : Link) (ref other : HostRef) : Prop :=
  (∃ id base, l.backing id = some ref ∧ l.running.frame.buffers[id]? = some (other, base)) ∨
    (ref = other ∧ ref.index < c.originals)

/-- The storage that a declared buffer of the function's own is bound to: as
    long as was declared, and no other buffer's. -/
structure Bound (l : Link) (declaration : BufferDeclaration) (other : HostRef) : Prop where
  bound : l.running.frame.buffers[declaration.id]? = some (other, 0)
  originals_le : c.originals ≤ other.index
  running_lt : other.index < l.running.heap.buffers.size
  dtype_eq : (l.running.heap.get other).dtype = declaration.dtype
  length_eq : (l.running.heap.get other).length = declaration.length
  alone : ∀ id base, l.running.frame.buffers[id]? = some (other, base) → id = declaration.id

/-- What holds between the two executions whenever one recorded operation ends
    and the next begins. -/
structure Sound (l : Link) : Prop where
  alike : ∀ ref other, c.Paired l ref other → l.Alike ref other
  paired : ∀ ref other ref' other', c.Paired l ref other → c.Paired l ref' other' →
    (ref = ref' ↔ other = other')
  locals : ∀ declaration ∈ c.declarations, declaration.source = .own → ∃ other, c.Bound l declaration other
  opened : ∀ ref, .opened ref ∈ l.log → c.originals ≤ ref.index ∧ ref.index < l.direct.buffers.size
  stored : ∀ cell, .stored cell ∈ l.log → cell.ref.index < l.direct.buffers.size
  originals_le : c.originals ≤ l.direct.buffers.size
  logged : ∀ cell, l.log.Settled cell → l.agreed cell
  storedBeforeLoaded : l.log.StoredBeforeLoaded

/-- The buffers declared after the present ones have not been used. They still
    hold what the call has begun with. -/
def Untouched (l : Link) : Prop :=
  ∀ declaration ∈ c.declarations, declaration.source = .own → l.buffers ≤ declaration.id.index →
    ∀ other base, l.running.frame.buffers[declaration.id]? = some (other, base) →
      l.running.heap.get other = .zeros declaration.dtype declaration.length

end Comparison

namespace Link

/-- What a later moment keeps of an earlier one: the bindings of buffers, the
    registers and buffers in use then, and the shape of host storage. -/
structure Keeps (l l' : Link) : Prop where
  buffers_eq : l'.running.frame.buffers = l.running.frame.buffers
  registers_eq : ∀ id : RegisterId, id.index < l.registers →
    l'.running.frame.registers[id]? = l.running.frame.registers[id]?
  backing_eq : ∀ id : BufferId, id.index < l.buffers → l'.backing id = l.backing id
  registers_le : l.registers ≤ l'.registers
  buffers_le : l.buffers ≤ l'.buffers
  size_le : l.direct.buffers.size ≤ l'.direct.buffers.size
  dtype_eq : ∀ ref : HostRef, ref.index < l.direct.buffers.size →
    (l'.direct.get ref).dtype = (l.direct.get ref).dtype
  length_eq : ∀ ref : HostRef, ref.index < l.direct.buffers.size →
    (l'.direct.get ref).length = (l.direct.get ref).length
  agreed : ∀ cell : Cell, cell.ref.index < l.direct.buffers.size → l.agreed cell → l'.agreed cell

theorem Keeps.refl (l : Link) : l.Keeps l := by
  constructor <;> simp

/-- A link that is kept by one step and then by another is kept by both
    together. -/
theorem Keeps.trans {l₁ l₂ l₃ : Link} (h : l₁.Keeps l₂) (h' : l₂.Keeps l₃) : l₁.Keeps l₃ where
  buffers_eq := h'.buffers_eq.trans h.buffers_eq
  registers_eq id hlt :=
    (h'.registers_eq id (Nat.lt_of_lt_of_le hlt h.registers_le)).trans (h.registers_eq id hlt)
  backing_eq id hlt :=
    (h'.backing_eq id (Nat.lt_of_lt_of_le hlt h.buffers_le)).trans (h.backing_eq id hlt)
  registers_le := Nat.le_trans h.registers_le h'.registers_le
  buffers_le := Nat.le_trans h.buffers_le h'.buffers_le
  size_le := Nat.le_trans h.size_le h'.size_le
  dtype_eq ref hlt := (h'.dtype_eq ref (Nat.lt_of_lt_of_le hlt h.size_le)).trans (h.dtype_eq ref hlt)
  length_eq ref hlt :=
    (h'.length_eq ref (Nat.lt_of_lt_of_le hlt h.size_le)).trans (h.length_eq ref hlt)
  agreed cell hlt hagreed := h'.agreed cell (Nat.lt_of_lt_of_le hlt h.size_le) (h.agreed cell hlt hagreed)

/-- An operand in use stands for the same immediate later on. Registers in use
    are not assigned again. -/
theorem Keeps.holds {l l' : Link} (h : l.Keeps l') {operand : Operand} {x : Numeric}
    (hholds : l.Holds operand x) : l'.Holds operand x := by
  obtain ⟨hlt, hvalue⟩ := hholds
  refine ⟨fun id heq => Nat.lt_of_lt_of_le (hlt id heq) h.registers_le, ?_⟩
  cases operand with
  | constant y => exact hvalue
  | register id =>
    simp only [Frame.operand] at hvalue ⊢
    rw [h.registers_eq id (hlt id rfl)]
    exact hvalue

end Link

namespace Comparison

variable [ArrayLibrary] {c : Comparison}

/-- Values that stand for each other do so later on. So variables need not be
    looked at again after each step. -/
theorem Sound.matches {l l' : Link} (hsound : c.Sound l) (h : l.Keeps l') {recorded direct : Value}
    (hmatches : l.Matches recorded direct) : l'.Matches recorded direct := by
  obtain ⟨hdtype, hlayout, hformed, hdata⟩ := hmatches
  refine ⟨hdtype, hlayout, hformed, ?_⟩
  revert hdata
  generalize recorded.data = r
  generalize direct.data = d
  intro hdata
  cases r <;> cases d <;> simp only [Link.DataMatches] at hdata ⊢
  case constant.constant => exact hdata
  case register.constant => exact ⟨h.holds hdata.1, hdata.2⟩
  case buffer.host id place ref offset =>
    obtain ⟨hlt, hbacking, other, base, index, size, hbound, hplace, hoffset, hsize, hle, htype⟩ := hdata
    have halike := hsound.alike ref other (.inl ⟨id, base, hbacking, hbound⟩)
    refine ⟨Nat.lt_of_lt_of_le hlt h.buffers_le, (h.backing_eq id hlt).trans hbacking, other, base, index,
      size, ?_, h.holds hplace, hoffset, hsize, ?_, ?_⟩
    · rw [h.buffers_eq]
      exact hbound
    · rw [h.length_eq ref halike.direct_lt]
      exact hle
    · rw [h.dtype_eq ref halike.direct_lt]
      exact htype

/-- What a value covers belongs to host storage in use. Storage taken later is
    apart from it. -/
theorem Sound.ref_lt {l : Link} (hsound : c.Sound l) {recorded direct : Value}
    (hmatches : l.Matches recorded direct) {cell : Cell} (hmem : cell ∈ direct.cells) :
    cell.ref.index < l.direct.buffers.size := by
  obtain ⟨_, _, _, hdata⟩ := hmatches
  obtain ⟨dtype, layout, data⟩ := direct
  cases data with
  | host ref offset =>
    simp only [Value.cells, Value.host?, List.mem_map] at hmem
    obtain ⟨_, _, rfl⟩ := hmem
    cases hrecorded : recorded.data <;> rw [hrecorded] at hdata <;>
      simp only [Link.DataMatches] at hdata
    obtain ⟨_, hbacking, other, base, _, _, hbound, _⟩ := hdata
    exact (hsound.alike ref other (.inl ⟨_, base, hbacking, hbound⟩)).direct_lt
  | constant | buffer | register => simp [Value.cells, Value.host?] at hmem

/-- What agrees of a value does so later on. Whatever is written is written on
    both sides. -/
theorem Sound.readable {l l' : Link} (hsound : c.Sound l) (h : l.Keeps l') {recorded direct : Value}
    (hmatches : l.Matches recorded direct) (hreadable : l.Readable direct) : l'.Readable direct :=
  fun cell hmem => h.agreed cell (hsound.ref_lt hmatches hmem) (hreadable cell hmem)

theorem Sound.envMatches {n : Nat} {l l' : Link} (hsound : c.Sound l) (h : l.Keeps l')
    {recorded direct : Env n} (hmatches : l.EnvMatches recorded direct) :
    l'.EnvMatches recorded direct := fun i => hsound.matches h (hmatches i)

variable (c)

/-- A later moment at which all buffers that are not in use yet still hold what
    they held. -/
structure Leads (l l' : Link) : Prop extends l.Keeps l' where
  unused_eq : ∀ declaration ∈ c.declarations, declaration.source = .own →
    l'.buffers ≤ declaration.id.index →
      ∀ other base, l.running.frame.buffers[declaration.id]? = some (other, base) →
        l'.running.heap.get other = l.running.heap.get other

variable {c}

theorem Leads.refl (l : Link) : c.Leads l l := ⟨.refl l, by simp⟩

/-- Two moments of which the second comes later, and then a third: buffers that
    are not in use by then have kept what they held all along. -/
theorem Leads.trans {l₁ l₂ l₃ : Link} (h : c.Leads l₁ l₂) (h' : c.Leads l₂ l₃) : c.Leads l₁ l₃ where
  toKeeps := h.toKeeps.trans h'.toKeeps
  unused_eq declaration hmem hown hle other base hget := by
    rw [h'.unused_eq declaration hmem hown hle other base (by rw [h.buffers_eq, hget]),
      h.unused_eq declaration hmem hown (Nat.le_trans h'.buffers_le hle) other base hget]

/-- Buffers that nothing has used are still unused after what uses others
    only. -/
theorem Leads.untouched {l l' : Link} (h : c.Leads l l') (huntouched : c.Untouched l) :
    c.Untouched l' := by
  intro declaration hmem hown hle other base hget
  rw [h.buffers_eq] at hget
  rw [h.unused_eq declaration hmem hown hle other base hget]
  exact huntouched declaration hmem hown (Nat.le_trans h.buffers_le hle) other base hget

end Comparison

end StagedArrays
