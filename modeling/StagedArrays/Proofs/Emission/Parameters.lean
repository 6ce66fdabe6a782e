import StagedArrays.Proofs.Emission.Simulation

namespace StagedArrays

namespace Value

/-- A value of host storage that is in use and reaches as far as the layout
    does. -/
structure OnHost (heap : Heap) (value : Value) (ref : HostRef) (offset : Nat) : Prop where
  data_eq : value.data = .host ref offset
  ref_lt : ref.index < heap.buffers.size
  formed : value.layout.Formed
  make_eq : Value.make heap value.dtype value.layout (.host ref offset) = .ok value

end Value

namespace Program

/-- What a program can be given: any view of host storage. Inputs may share
    storage. -/
def Input (heap : Heap) (value : Value) : Prop := ∃ ref offset, value.OnHost heap ref offset

/-- The buffers and offsets of inputs. A call is handed these, and not the
    layouts. -/
def arguments (inputs : List Value) : List HostArgument :=
  inputs.filterMap fun input => input.host?.map fun (ref, offset) => .buffer ref offset

end Program

namespace Frame

variable {heap : Heap}

/-- The buffers that are bound have numbers below a count, and host storage in
    use. -/
def Below (frame : Frame) (heap : Heap) (count : Nat) : Prop :=
  ∀ (id : BufferId) (other : HostRef) (base : Nat), frame.buffers[id]? = some (other, base) →
    id.index < count ∧ other.index < heap.buffers.size

theorem below_empty (heap : Heap) : ({} : Frame).Below heap 0 := by
  intro id other base h
  simp at h

theorem buffers_bind (frame : Frame) (id other : BufferId) (ref : HostRef) (offset : Nat) :
    (frame.bind id ref offset).buffers[other]? = if id = other then some (ref, offset) else frame.buffers[other]? := by
  simp [bind, Std.HashMap.getElem?_insert]

/-- Binding the next buffer keeps those before it. -/
theorem Below.bind {frame : Frame} {count : Nat} (h : frame.Below heap count) {ref : HostRef} (offset : Nat)
    (hlt : ref.index < heap.buffers.size) : (frame.bind ⟨count⟩ ref offset).Below heap (count + 1) := by
  intro id other base hget
  rw [buffers_bind] at hget
  split at hget
  · next heq =>
    cases hget
    subst heq
    exact ⟨Nat.lt_succ_self _, hlt⟩
  · obtain ⟨hid, hother⟩ := h id other base hget
    exact ⟨Nat.lt_succ_of_lt hid, hother⟩

/-- What a call binds the parameters of a function to, from a number on. Inputs
    may share storage. -/
structure Entered (heap : Heap) (inputs values : List Value) (declarations : List BufferDeclaration) (first : Nat)
    (frame frame' : Frame) : Prop where
  id_eq : ∀ (k : Nat) (declaration : BufferDeclaration), declarations[k]? = some declaration →
    declaration.id = ⟨first + k⟩
  isLocal_eq : ∀ declaration ∈ declarations, declaration.isLocal = false
  below : frame'.Below heap (first + declarations.length)
  kept : ∀ id : BufferId, id.index < first → frame'.buffers[id]? = frame.buffers[id]?
  bound : List.Forall₂ (fun value input => ∃ id ref offset, value = .emittedBuffer input.dtype input.layout id ∧
    input.OnHost heap ref offset ∧ id.index < first + declarations.length ∧
      frame'.buffers[id]? = some (ref, offset)) values inputs

theorem Entered.nil {frame : Frame} {first : Nat} (h : frame.Below heap first) :
    Entered heap [] [] [] first frame frame := by
  refine ⟨?_, ?_, h, fun _ _ => rfl, .nil⟩ <;> simp

/-- One more parameter is entered by binding its declaration to the storage and
    the offset of its input. The declarations behind it are numbered on. -/
theorem Entered.cons {inputs values : List Value} {declarations : List BufferDeclaration} {first offset : Nat}
    {frame frame' : Frame} {input : Value} {ref : HostRef} {declaration : BufferDeclaration}
    (hinput : input.OnHost heap ref offset) (hid : declaration.id = ⟨first⟩) (hlocal : declaration.isLocal = false)
    (h : Entered heap inputs values declarations (first + 1) (frame.bind ⟨first⟩ ref offset) frame') :
    Entered heap (input :: inputs) (.emittedBuffer input.dtype input.layout ⟨first⟩ :: values)
      (declaration :: declarations) first frame frame' := by
  have hcount : first + (declaration :: declarations).length = first + 1 + declarations.length := by
    rw [List.length_cons]
    omega
  refine ⟨?_, ?_, hcount ▸ h.below, ?_, .cons ⟨⟨first⟩, ref, offset, rfl, hinput, ?_, ?_⟩ (hcount ▸ h.bound)⟩
  · intro k found hget
    cases k with
    | zero =>
      cases hget
      exact hid
    | succ k =>
      rw [h.id_eq k found hget]
      congr 1
      omega
  · intro found hmem
    rcases List.mem_cons.mp hmem with rfl | hmem
    · exact hlocal
    · exact h.isLocal_eq found hmem
  · intro id hlt
    rw [h.kept id (Nat.lt_succ_of_lt hlt), buffers_bind, if_neg]
    rintro rfl
    exact Nat.lt_irrefl _ hlt
  · rw [hcount]
    exact Nat.lt_of_lt_of_le (Nat.lt_succ_self first) (Nat.le_add_right _ _)
  · rw [h.kept ⟨first⟩ (Nat.lt_succ_self _), buffers_bind, if_pos rfl]

/-- An argument of host storage is bound to the buffer that stands for it. It
    fits, since the parameter was made for it. -/
theorem bindArgument_eq_ok {input : Value} {ref : HostRef} {offset : Nat} (hinput : input.OnHost heap ref offset)
    (frame : Frame) (function : String) (id : BufferId) :
    frame.bindArgument heap function (.buffer id) (ValueType.of input) (.buffer ref offset) =
      .ok (frame.bind id ref offset) := by
  obtain ⟨hdtype, ⟨size, hsize, hbound, hle⟩, -⟩ := Value.make_host_eq_ok.mp hinput.make_eq
  have hadd : Word.add offset size = .ok (offset + size) := Word.add_eq_ok_iff.mpr ⟨rfl, hbound⟩
  simp only [bindArgument, ValueType.of, hdtype, ne_eq, not_true, ite_false, hsize, liftM_fault_ok, ok_bind, hadd,
    if_neg (Nat.not_lt_of_le hle)]
  rfl

end Frame

namespace FunctionBuilder

/-- A parameter of host storage is known as the next buffer. No register is
    taken for it. -/
theorem bindParameters_cons {input : Value} (haddressable : input.isAddressable = true) (index : Nat)
    (types : List ValueType) (builder : FunctionBuilder) :
    bindParameters index (ValueType.of input :: types) builder = (do
      let size ← input.layout.memorySize
      let (values, after) ← bindParameters (index + 1) types
        { builder with
          buffers := builder.buffers.push ⟨⟨builder.buffers.size⟩, input.dtype, size, .parameter index⟩
          bindings := builder.bindings.push (.buffer ⟨builder.buffers.size⟩) }
      return (.emittedBuffer input.dtype input.layout ⟨builder.buffers.size⟩ :: values, after)) := by
  have hlevel : (ValueType.of input).pointerLevel ≠ 0 := by
    simp [ValueType.of, Value.pointerLevel, haddressable]
  rw [bindParameters, if_neg hlevel]
  refine bind_congr fun size => ?_
  simp only [newBuffer, pure_bind]
  rfl

/-- Parameters of host storage take the next buffers, which a call binds to the
    arguments. -/
theorem exists_entered {heap : Heap} {inputs values : List Value} (hinputs : ∀ input ∈ inputs, Program.Input heap input)
    {index : Nat} {builder builder' : FunctionBuilder}
    (h : bindParameters index (inputs.map ValueType.of) builder = .ok (values, builder')) (function : String)
    {frame : Frame} (hbelow : frame.Below heap builder.buffers.size) :
    ∃ declarations bindings frame',
      builder' = { builder with
        buffers := builder.buffers ++ declarations.toArray
        bindings := builder.bindings ++ bindings.toArray } ∧
      Frame.bindArguments heap function bindings (inputs.map ValueType.of) (Program.arguments inputs) frame =
        .ok frame' ∧
      Frame.Entered heap inputs values declarations builder.buffers.size frame frame' := by
  induction inputs generalizing index builder values frame with
  | nil =>
    cases h
    exact ⟨[], [], frame, by simp, rfl, .nil hbelow⟩
  | cons input inputs ih =>
    obtain ⟨ref, offset, hinput⟩ := hinputs input List.mem_cons_self
    have haddressable : input.isAddressable = true := by rw [Value.isAddressable, hinput.data_eq]
    rw [List.map_cons, bindParameters_cons haddressable] at h
    simp only [bind_eq_ok_iff] at h
    obtain ⟨size, -, ⟨rest, after⟩, hrest, h⟩ := h
    cases h
    obtain ⟨declarations, bindings, frame', rfl, hbind, hentered⟩ :=
      @ih _ (fun input hmem => hinputs input (List.mem_cons_of_mem _ hmem)) _ _ hrest
        (frame.bind ⟨builder.buffers.size⟩ ref offset) (by simpa using hbelow.bind offset hinput.ref_lt)
    simp only [Array.size_push] at hentered
    refine ⟨⟨⟨builder.buffers.size⟩, input.dtype, size, .parameter index⟩ :: declarations,
      .buffer ⟨builder.buffers.size⟩ :: bindings, frame', by simp, ?_, .cons hinput rfl rfl hentered⟩
    have hhost : input.host? = some (ref, offset) := by rw [Value.host?, hinput.data_eq]
    have harguments : Program.arguments (input :: inputs) = .buffer ref offset :: Program.arguments inputs := by
      simp [Program.arguments, hhost]
    rw [harguments, List.map_cons, Frame.bindArguments, Frame.bindArgument_eq_ok hinput]
    exact hbind

end FunctionBuilder

end StagedArrays
