import StagedArrays.Context.Builder
import StagedArrays.Kernel.Dot
import StagedArrays.Proofs.Numeric.Index
import StagedArrays.Proofs.Stateful

namespace StagedArrays

/-- A piece of an emitted function: its instructions, how many registers they
    take, and the storage declared for them. -/
structure Fragment where
  code : List Instruction := []
  registers : Nat := 0
  buffers : List BufferDeclaration := []

namespace Fragment

def empty : Fragment := {}

/-- One piece after another. The registers and buffers of the second come after
    those of the first. -/
def append (f g : Fragment) : Fragment :=
  ⟨f.code ++ g.code, f.registers + g.registers, f.buffers ++ g.buffers⟩

@[simp]
theorem empty_append (f : Fragment) : empty.append f = f := by simp [empty, append]

@[simp]
theorem append_empty (f : Fragment) : f.append empty = f := by simp [empty, append]

theorem append_assoc (f g h : Fragment) : (f.append g).append h = f.append (g.append h) := by
  simp [append, Nat.add_assoc]

end Fragment

namespace FunctionBuilder

/-- Records a piece at the end of the innermost block, and counts its registers
    and buffers. -/
def extend (builder : FunctionBuilder) (f : Fragment) : FunctionBuilder :=
  { builder with
    nextRegister := builder.nextRegister + f.registers
    buffers := builder.buffers ++ f.buffers.toArray
    blocks :=
      match builder.blocks with
      | [] => []
      | block :: outer => (block ++ f.code.toArray) :: outer }

variable (builder : FunctionBuilder)

@[simp]
theorem nextRegister_extend (f : Fragment) :
    (builder.extend f).nextRegister = builder.nextRegister + f.registers := rfl

@[simp]
theorem buffers_extend (f : Fragment) : (builder.extend f).buffers = builder.buffers ++ f.buffers.toArray := rfl

theorem prefix_extend (f : Fragment) : builder.buffers.toList <+: (builder.extend f).buffers.toList := by
  simp

/-- An empty piece adds nothing. So an operation that records nothing leaves the
    function as it is. -/
@[simp]
theorem extend_empty : builder.extend .empty = builder := by
  cases builder with
  | mk name symbol parameters returnType bindings buffers blocks nextRegister =>
    cases blocks <;> simp [extend, Fragment.empty]

/-- Two pieces one after the other are added as one. This is how recordings are
    put together. -/
@[simp]
theorem extend_extend (f g : Fragment) : (builder.extend f).extend g = builder.extend (f.append g) := by
  cases builder with
  | mk name symbol parameters returnType bindings buffers blocks nextRegister =>
    cases blocks <;> simp [extend, Fragment.append, Nat.add_assoc]

/-- To record an instruction is to extend the function by it. No register and no
    buffer is taken. -/
theorem emit_eq_extend (instruction : Instruction) :
    builder.emit instruction = builder.extend { code := [instruction] } := by
  cases builder with
  | mk name symbol parameters returnType bindings buffers blocks nextRegister =>
    cases blocks <;> simp [emit, extend]

/-- To take a register is to extend the function by one. No instruction is
    recorded. -/
theorem newRegister_eq_extend :
    builder.newRegister = (⟨builder.nextRegister⟩, builder.extend { registers := 1 }) := by
  cases builder with
  | mk name symbol parameters returnType bindings buffers blocks nextRegister =>
    cases blocks <;> simp [newRegister, extend]

/-- To declare a buffer is to extend the function by it. It has the next
    number. -/
theorem newBuffer_eq_extend (dtype : DType) (length : Nat) (source : BufferSource) :
    builder.newBuffer dtype length source =
      (⟨builder.buffers.size⟩,
        builder.extend { buffers := [⟨⟨builder.buffers.size⟩, dtype, length, source⟩] }) := by
  cases builder with
  | mk name symbol parameters returnType bindings buffers blocks nextRegister =>
    cases blocks <;> simp [newBuffer, extend]

end FunctionBuilder

namespace Emitter

/-- An emitter with a function in progress. -/
def emitting (emitter : Emitter) (builder : FunctionBuilder) : Emitter := { emitter with current := some builder }

variable {emitter : Emitter}

theorem runFrom_builder {current : FunctionBuilder} (hcurrent : emitter.current = some current) :
    builder.runFrom emitter = (.ok current, emitter) := by
  simp [builder, Stateful.runFrom_bind, hcurrent]

theorem runFrom_builder_of_none (hcurrent : emitter.current = none) :
    builder.runFrom emitter = (.error (.error (.invalidArgument .noOpenFunction)), emitter) := by
  simp [builder, Stateful.runFrom_bind, hcurrent]

theorem runFrom_setBuilder (emitter : Emitter) (builder : FunctionBuilder) :
    (setBuilder builder).runFrom emitter = (.ok (), emitter.emitting builder) := rfl

end Emitter

namespace Kernel

/-- The symbols that inner products call. -/
def symbols : List String := [singleDotSymbol, doubleDotSymbol]

end Kernel

namespace BufferDeclaration

/-- Buffers that are numbered in order have numbers of their own. So a frame can
    bind all of them. -/
theorem nodup_of_id_eq {declarations : List BufferDeclaration}
    (h : ∀ (k : Nat) (declaration : BufferDeclaration), declarations[k]? = some declaration → declaration.id = ⟨k⟩) :
    (declarations.map BufferDeclaration.id).Nodup := by
  have hids : declarations.map BufferDeclaration.id = (List.range declarations.length).map BufferId.mk := by
    refine List.ext_getElem? fun k => ?_
    rw [List.getElem?_map, List.getElem?_map]
    by_cases hlt : k < declarations.length
    · rw [List.getElem?_range hlt, List.getElem?_eq_getElem hlt]
      simp [h k _ (List.getElem?_eq_getElem hlt)]
    · rw [List.getElem?_eq_none (Nat.le_of_not_lt hlt), List.getElem?_eq_none (by simpa using hlt)]
      rfl
  rw [hids]
  exact List.pairwise_map.mpr (List.nodup_range.imp fun hne heq => hne (congrArg BufferId.index heq))

/-- Parameters come before what a recorded piece declares. The numbering goes on
    without a gap. -/
theorem id_eq_append {declarations more : List BufferDeclaration}
    (h : ∀ (k : Nat) (declaration : BufferDeclaration), declarations[k]? = some declaration → declaration.id = ⟨k⟩)
    (hmore : ∀ (k : Nat) (declaration : BufferDeclaration), more[k]? = some declaration →
      declaration.id = ⟨declarations.length + k⟩) (k : Nat) (declaration : BufferDeclaration)
    (hget : (declarations ++ more)[k]? = some declaration) : declaration.id = ⟨k⟩ := by
  rw [List.getElem?_append] at hget
  split at hget
  · exact h k declaration hget
  · next hge =>
    rw [hmore _ declaration hget]
    congr 1
    omega

end BufferDeclaration

namespace Fragment

/-- What holds of every piece that the operations of a program record after
    `first` buffers: its storage is numbered on from there, belongs to the
    function itself and can be counted by a signed word, and its calls go to the
    kernels. -/
structure Placed (f : Fragment) (first : Nat) : Prop where
  id_eq : ∀ (k : Nat) (declaration : BufferDeclaration), f.buffers[k]? = some declaration →
    declaration.id = ⟨first + k⟩
  source_eq : ∀ declaration ∈ f.buffers, declaration.source = .own
  signed : ∀ declaration ∈ f.buffers, Word.Signed declaration.length
  symbols_mem : ∀ symbol ∈ blockSymbols f.code, symbol ∈ Kernel.symbols

theorem blockSymbols_append (code more : List Instruction) :
    blockSymbols (code ++ more) = blockSymbols code ++ blockSymbols more := by
  induction code with
  | nil => rfl
  | cons instruction code ih => simp [blockSymbols, ih]

/-- A piece that declares no storage and calls nothing fits anywhere. There is
    nothing to number or to resolve in it. -/
theorem placed_of_quiet {f : Fragment} (first : Nat) (hbuffers : f.buffers = [])
    (hsymbols : blockSymbols f.code = []) : f.Placed first := by
  refine ⟨?_, ?_, ?_, ?_⟩ <;> simp [hbuffers, hsymbols]

/-- Buffers are numbered on without a gap from one piece of code to the next. -/
theorem Placed.append {f g : Fragment} {first : Nat} (hf : f.Placed first)
    (hg : g.Placed (first + f.buffers.length)) : (f.append g).Placed first := by
  refine ⟨?_, ?_, ?_, ?_⟩
  · intro k declaration hget
    simp only [Fragment.append, List.getElem?_append] at hget
    split at hget
    · exact hf.id_eq k declaration hget
    · next hge =>
      rw [hg.id_eq _ declaration hget]
      congr 1
      omega
  · intro declaration hmem
    rcases List.mem_append.mp hmem with hmem | hmem
    · exact hf.source_eq declaration hmem
    · exact hg.source_eq declaration hmem
  · intro declaration hmem
    rcases List.mem_append.mp hmem with hmem | hmem
    · exact hf.signed declaration hmem
    · exact hg.signed declaration hmem
  · intro symbol hmem
    simp only [Fragment.append, blockSymbols_append, List.mem_append] at hmem
    rcases hmem with hmem | hmem
    · exact hf.symbols_mem symbol hmem
    · exact hg.symbols_mem symbol hmem

end Fragment

end StagedArrays
