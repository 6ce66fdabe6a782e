import StagedArrays.Proofs.Emission.Operation

namespace StagedArrays

namespace Fragment

/-- A piece inside a nest of loops, one per extent, whose induction registers
    are numbered from `first`. -/
def nest (f : Fragment) : (first : Nat) → (extents : List Nat) → Fragment
  | _, [] => f
  | first, extent :: extents =>
    let inner := f.nest (first + 1) extents
    ⟨[.loop ⟨first⟩ extent inner.code], inner.registers + 1, inner.buffers⟩

theorem buffers_nest (f : Fragment) (first : Nat) (extents : List Nat) :
    (f.nest first extents).buffers = f.buffers := by
  induction extents generalizing first with
  | nil => rfl
  | cons extent extents ih => exact ih (first + 1)

/-- Each loop around a piece of code takes one register more, for its
    counter. -/
theorem registers_nest (f : Fragment) (first : Nat) (extents : List Nat) :
    (f.nest first extents).registers = extents.length + f.registers := by
  induction extents generalizing first with
  | nil => simp [nest]
  | cons extent extents ih =>
    simp only [nest, ih, List.length_cons]
    omega

/-- What a nest of loops calls its body calls. The loops add no calls. -/
theorem blockSymbols_nest (f : Fragment) (first : Nat) (extents : List Nat) :
    blockSymbols (f.nest first extents).code = blockSymbols f.code := by
  induction extents generalizing first with
  | nil => rfl
  | cons extent extents ih => simp [nest, blockSymbols, Instruction.symbols, ih]

/-- Loops declare no buffers, so that those of the body are numbered as
    before. -/
theorem Placed.nest {f : Fragment} {first : Nat} (h : f.Placed first) (register : Nat)
    (extents : List Nat) : (f.nest register extents).Placed first := by
  obtain ⟨hid, hsource, hsigned, hsymbols⟩ := h
  refine ⟨?_, ?_, ?_, ?_⟩
  · rwa [buffers_nest]
  · rwa [buffers_nest]
  · rwa [buffers_nest]
  · rwa [blockSymbols_nest]

end Fragment

namespace FunctionBuilder

/-- The induction registers of so many loops, the outermost first. They are
    numbered in a row. -/
def loopRegisters (first count : Nat) : List RegisterId := (List.range' first count).map RegisterId.mk

/-- The builder inside so many loops that have just been opened, each with a
    register of its own. -/
def opened (builder : FunctionBuilder) : (count : Nat) → FunctionBuilder
  | 0 => builder
  | count + 1 => (builder.newRegister.2.openBlock).opened count

@[simp]
theorem buffers_opened (builder : FunctionBuilder) (count : Nat) :
    (builder.opened count).buffers = builder.buffers := by
  induction count generalizing builder with
  | zero => rfl
  | succ count ih => exact ih _

@[simp]
theorem nextRegister_opened (builder : FunctionBuilder) (count : Nat) :
    (builder.opened count).nextRegister = builder.nextRegister + count := by
  induction count generalizing builder with
  | zero => rfl
  | succ count ih =>
    rw [opened, ih]
    simp only [newRegister, openBlock]
    omega

/-- Closing a loop records it behind what was recorded before. Its body is what
    was recorded since it was opened. -/
theorem closeBlock_extend_openBlock (builder : FunctionBuilder) (f : Fragment) (extent : Nat) :
    (builder.newRegister.2.openBlock.extend f).closeBlock.2.emit
        (.loop ⟨builder.nextRegister⟩ extent (builder.newRegister.2.openBlock.extend f).closeBlock.1) =
      builder.extend ⟨[.loop ⟨builder.nextRegister⟩ extent f.code], f.registers + 1, f.buffers⟩ := by
  cases builder with
  | mk name symbol parameters returnType bindings buffers blocks nextRegister =>
    cases blocks <;> simp [newRegister, openBlock, extend, closeBlock, emit] <;> omega

end FunctionBuilder

namespace Emitter

/-- The loops are opened outermost first. Their counters are the next registers,
    one for each extent, and the instructions that follow go into the innermost
    body. -/
theorem runFrom_openLoops (emitter : Emitter) (builder : FunctionBuilder) (extents : List Nat) :
    (Emit.openLoops extents).runFrom (emitter.emitting builder) =
      (.ok (FunctionBuilder.loopRegisters builder.nextRegister extents.length),
        emitter.emitting (builder.opened extents.length)) := by
  induction extents generalizing builder with
  | nil => rfl
  | cons extent extents ih =>
    unfold Emit.openLoops
    rw [Stateful.runFrom_bind_of_ok (runFrom_builder rfl)]
    dsimp only [FunctionBuilder.newRegister]
    rw [Stateful.runFrom_bind_of_ok (runFrom_setBuilder _ _)]
    change ((Emit.openLoops extents) >>= _).runFrom (emitter.emitting builder.newRegister.2.openBlock) = _
    rw [Stateful.runFrom_bind_of_ok (ih _)]
    rfl

/-- Closing the loops that have been opened records what was recorded since
    inside them. -/
theorem runFrom_closeLoops (emitter : Emitter) (builder : FunctionBuilder) (extents : List Nat) (f : Fragment) :
    (Emit.closeLoops (FunctionBuilder.loopRegisters builder.nextRegister extents.length) extents).runFrom
        (emitter.emitting ((builder.opened extents.length).extend f)) =
      (.ok (), emitter.emitting (builder.extend (f.nest builder.nextRegister extents))) := by
  induction extents generalizing builder with
  | nil => rfl
  | cons extent extents ih =>
    have hinner := ih builder.newRegister.2.openBlock
    rw [show builder.newRegister.2.openBlock.nextRegister = builder.nextRegister + 1 from rfl] at hinner
    rw [show FunctionBuilder.loopRegisters builder.nextRegister (extent :: extents).length =
      ⟨builder.nextRegister⟩ :: FunctionBuilder.loopRegisters (builder.nextRegister + 1) extents.length from rfl]
    unfold Emit.closeLoops
    rw [List.length_cons, FunctionBuilder.opened, Stateful.runFrom_bind_of_ok hinner,
      Stateful.runFrom_bind_of_ok (runFrom_builder rfl)]
    dsimp only
    rw [runFrom_setBuilder, FunctionBuilder.closeBlock_extend_openBlock]
    rfl

end Emitter

namespace Comparison

variable [ArrayLibrary] {c : Comparison} {builder : FunctionBuilder}

/-- What a body records is recorded inside a nest of loops. It is recorded once,
    with registers for coordinates. -/
theorem Records.forEach {layout : Layout} {body : List Scalar → Action AccessLog Unit}
    {post : Unit → Fragment → Prop}
    (h : c.Records (builder.opened layout.extents.length)
      (body ((FunctionBuilder.loopRegisters builder.nextRegister layout.extents.length).map
        (Scalar.ofRegister .i64)))
      fun value f => post value (f.nest builder.nextRegister layout.extents)) :
    c.Records builder ((Context.emitter c.id).forEach layout body) post := by
  intro log value world hrun
  unfold Context.forEach at hrun
  dsimp only at hrun
  rw [Stateful.runFrom_bind_of_ok (runFrom_onEmitter_recordingAt log
    (Emitter.runFrom_openLoops c.emitter builder layout.extents)),
    Stateful.runFrom_bind_of_ok (Stateful.runFrom_attempt _ _)] at hrun
  cases hbody : (body ((FunctionBuilder.loopRegisters builder.nextRegister layout.extents.length).map
      (Scalar.ofRegister .i64))).runFrom (c.recordingAt (builder.opened layout.extents.length) log) with
  | mk outcome after =>
    rw [hbody] at hrun
    rcases outcome with (cause | fault) | u
    · obtain ⟨_, _, _, hsettle⟩ := Stateful.runFrom_bind_eq_ok.mp hrun
      cases hsettle
    · cases hrun
    · obtain ⟨f, log', rfl, hplaced, hpost⟩ := h log u after hbody
      dsimp only at hrun
      rw [Stateful.runFrom_bind_of_ok (runFrom_onEmitter_recordingAt log'
        (Emitter.runFrom_closeLoops c.emitter builder layout.extents f))] at hrun
      cases hrun
      rw [FunctionBuilder.buffers_opened] at hplaced
      exact ⟨_, log', rfl, hplaced.nest _ _, hpost⟩

end Comparison

end StagedArrays
