import StagedArrays.Proofs.Emission.Loop
import StagedArrays.Proofs.Script.Basic

namespace StagedArrays

open Stateful (Moves)

mutual

/-- The registers that an instruction assigns, in program order, loops
    included. -/
def Instruction.outputs : Instruction → List RegisterId
  | .binary output .. => [output]
  | .load output .. => [output]
  | .store .. => []
  | .loop induction _ body => induction :: blockOutputs body
  | .call _ _ output => output.toList

/-- The registers that a block assigns, in program order, loops included. -/
def blockOutputs : List Instruction → List RegisterId
  | [] => []
  | instruction :: rest => instruction.outputs ++ blockOutputs rest

end

mutual

/-- The instruction itself, or in place of a loop those of its body. So what is
    listed is no loop. -/
def Instruction.steps : Instruction → List Instruction
  | .loop _ _ body => blockSteps body
  | instruction => [instruction]

/-- The instructions of a block that are no loops, in program order. -/
def blockSteps : List Instruction → List Instruction
  | [] => []
  | instruction :: rest => instruction.steps ++ blockSteps rest

end

theorem blockOutputs_append (code more : List Instruction) :
    blockOutputs (code ++ more) = blockOutputs code ++ blockOutputs more := by
  induction code with
  | nil => rfl
  | cons instruction code ih => simp [blockOutputs, ih]

theorem blockSteps_append (code more : List Instruction) :
    blockSteps (code ++ more) = blockSteps code ++ blockSteps more := by
  induction code with
  | nil => rfl
  | cons instruction code ih => simp [blockSteps, ih]

namespace FunctionBuilder

theorem loopRegisters_append (first count more : Nat) :
    loopRegisters first count ++ loopRegisters (first + count) more = loopRegisters first (count + more) := by
  rw [loopRegisters, loopRegisters, ← List.map_append, List.range'_append_1, loopRegisters]

/-- Whether the storage that a function has declared so far is within the
    budget. -/
def InBudget (config : EmitterConfig) (builder : FunctionBuilder) : Prop :=
  builder.localBuffers.length ≤ config.maxBuffers ∧
    ∃ bytes, BufferDeclaration.totalBytes builder.localBuffers = .ok bytes ∧ bytes ≤ config.maxStorageBytes

theorem inBudget_of_buffers_eq {config : EmitterConfig} {builder other : FunctionBuilder}
    (h : other.buffers = builder.buffers) (hbudget : builder.InBudget config) : other.InBudget config := by
  rwa [InBudget, localBuffers, h]

end FunctionBuilder

namespace Fragment

/-- A piece that takes the next registers in program order, each for one
    instruction, and declares the next buffers, within the budget. -/
structure Orderly (f : Fragment) (config : EmitterConfig) (builder : FunctionBuilder) : Prop where
  outputs_eq : blockOutputs f.code = FunctionBuilder.loopRegisters builder.nextRegister f.registers
  id_eq : ∀ (k : Nat) (declaration : BufferDeclaration), f.buffers[k]? = some declaration →
    declaration.id = ⟨builder.buffers.size + k⟩
  source_eq : ∀ declaration ∈ f.buffers, declaration.source = .own
  inBudget : builder.InBudget config → (builder.extend f).InBudget config

variable {f g : Fragment} {config : EmitterConfig} {builder : FunctionBuilder}

/-- What declares no storage stays within the budget. -/
theorem orderly_of_buffers_eq_nil (hbuffers : f.buffers = [])
    (houtputs : blockOutputs f.code = FunctionBuilder.loopRegisters builder.nextRegister f.registers) :
    f.Orderly config builder := by
  refine ⟨houtputs, by simp [hbuffers], by simp [hbuffers], ?_⟩
  exact FunctionBuilder.inBudget_of_buffers_eq (by simp [hbuffers])

theorem orderly_empty : Fragment.empty.Orderly config builder := orderly_of_buffers_eq_nil rfl rfl

/-- Two pieces that are orderly one after the other are orderly as one. -/
theorem Orderly.append (hf : f.Orderly config builder) (hg : g.Orderly config (builder.extend f)) :
    (f.append g).Orderly config builder where
  outputs_eq := by
    rw [Fragment.append, blockOutputs_append, hf.outputs_eq, hg.outputs_eq, FunctionBuilder.nextRegister_extend,
      FunctionBuilder.loopRegisters_append]
  id_eq k declaration hget := by
    simp only [Fragment.append, List.getElem?_append] at hget
    split at hget
    · exact hf.id_eq k declaration hget
    · next hge =>
      have hsize : (builder.extend f).buffers.size = builder.buffers.size + f.buffers.length := by simp
      rw [hg.id_eq _ declaration hget, hsize]
      congr 1
      omega
  source_eq declaration hmem := by
    rcases List.mem_append.mp hmem with hmem | hmem
    · exact hf.source_eq declaration hmem
    · exact hg.source_eq declaration hmem
  inBudget hbudget := by
    rw [← FunctionBuilder.extend_extend]
    exact hg.inBudget (hf.inBudget hbudget)

/-- The registers of a loop nest are its counters, outermost first, and then
    those of its body. -/
theorem blockOutputs_nest (f : Fragment) (first : Nat) (extents : List Nat) :
    blockOutputs (f.nest first extents).code =
      FunctionBuilder.loopRegisters first extents.length ++ blockOutputs f.code := by
  induction extents generalizing first with
  | nil => rfl
  | cons extent extents ih =>
    simp only [nest, blockOutputs, Instruction.outputs, ih (first + 1), List.append_nil, List.length_cons]
    rfl

/-- Loops around a piece of code add no steps to it. A loop is none itself. -/
theorem blockSteps_nest (f : Fragment) (first : Nat) (extents : List Nat) :
    blockSteps (f.nest first extents).code = blockSteps f.code := by
  induction extents generalizing first with
  | nil => rfl
  | cons extent extents ih => simp [nest, blockSteps, Instruction.steps, ih]

/-- A body that is orderly after the counters of its loops is orderly together
    with the loops. -/
theorem Orderly.nest {extents : List Nat} (h : f.Orderly config (builder.opened extents.length)) :
    (f.nest builder.nextRegister extents).Orderly config builder where
  outputs_eq := by
    rw [blockOutputs_nest, h.outputs_eq, FunctionBuilder.nextRegister_opened, FunctionBuilder.loopRegisters_append,
      registers_nest]
  id_eq := by simpa [buffers_nest] using h.id_eq
  source_eq := by simpa [buffers_nest] using h.source_eq
  inBudget hbudget := by
    have hopened := FunctionBuilder.inBudget_of_buffers_eq (builder.buffers_opened extents.length) hbudget
    refine FunctionBuilder.inBudget_of_buffers_eq ?_ (h.inBudget hopened)
    simp [buffers_nest]

end Fragment

namespace Emitter

/-- What an emitter was made with. Nothing changes it later. -/
def settings (emitter : Emitter) : String × EmitterConfig := (emitter.moduleName, emitter.config)

/-- How operations change an emitter: they record a piece without loops at the
    end of the innermost block of the function in progress, also if they fail,
    and nothing if there is none. -/
def Grows (emitter after : Emitter) : Prop :=
  match emitter.current with
  | none => after = emitter
  | some builder => ∃ f : Fragment, after = emitter.emitting (builder.extend f) ∧ f.Orderly emitter.config builder ∧
      blockSteps f.code = f.code

variable {emitter after : Emitter}

theorem grows_iff {current : FunctionBuilder} (hcurrent : emitter.current = some current) : emitter.Grows after ↔
    ∃ f : Fragment, after = emitter.emitting (current.extend f) ∧ f.Orderly emitter.config current ∧
      blockSteps f.code = f.code := by
  rw [Grows, hcurrent]

theorem Grows.eq_of_none (h : emitter.Grows after) (hcurrent : emitter.current = none) : after = emitter := by
  rwa [Grows, hcurrent] at h

/-- What has been recorded before stays. It is only the function in progress
    that grows. -/
theorem Grows.functions_eq (h : emitter.Grows after) : after.functions = emitter.functions := by
  cases hcurrent : emitter.current with
  | none => rw [h.eq_of_none hcurrent]
  | some builder =>
    obtain ⟨f, rfl, -⟩ := (grows_iff hcurrent).mp h
    rfl

/-- Operations leave the name of the module and the budget alone. -/
theorem Grows.settings_eq (h : emitter.Grows after) : after.settings = emitter.settings := by
  cases hcurrent : emitter.current with
  | none => rw [h.eq_of_none hcurrent]
  | some builder =>
    obtain ⟨f, rfl, -⟩ := (grows_iff hcurrent).mp h
    rfl

/-- Recording nothing is recording an empty piece. -/
theorem Grows.refl (emitter : Emitter) : emitter.Grows emitter := by
  cases hcurrent : emitter.current with
  | none => rw [Grows, hcurrent]
  | some builder =>
    refine (grows_iff hcurrent).mpr ⟨.empty, ?_, Fragment.orderly_empty, rfl⟩
    rw [FunctionBuilder.extend_empty, emitting, ← hcurrent]

/-- Two pieces that are recorded one after the other are one piece. -/
theorem Grows.trans {final : Emitter} (h : emitter.Grows after) (h' : after.Grows final) : emitter.Grows final := by
  cases hcurrent : emitter.current with
  | none =>
    rwa [h.eq_of_none hcurrent] at h'
  | some builder =>
    obtain ⟨f, rfl, hf, hsteps⟩ := (grows_iff hcurrent).mp h
    obtain ⟨g, rfl, hg, hsteps'⟩ := (grows_iff rfl).mp h'
    refine (grows_iff hcurrent).mpr ⟨f.append g, ?_, hf.append hg, ?_⟩
    · rw [← FunctionBuilder.extend_extend]
      rfl
    · rw [Fragment.append, blockSteps_append, hsteps, hsteps']

instance : IsPreorder Emitter Grows where
  refl := .refl
  trans _ _ _ := .trans

/-- What is done with the function in progress. Without one there is an error
    and nothing changes. -/
theorem grows_builder_bind {α : Type} {next : FunctionBuilder → EmitterM α}
    (h : ∀ (emitter : Emitter) (builder : FunctionBuilder), emitter.current = some builder →
      emitter.Grows ((next builder).runFrom emitter).2) : Moves Grows (builder >>= next) := by
  intro emitter
  cases hcurrent : emitter.current with
  | none =>
    rw [Stateful.runFrom_bind_of_error (runFrom_builder_of_none hcurrent)]
    exact .refl emitter
  | some current =>
    rw [Stateful.runFrom_bind_of_ok (runFrom_builder hcurrent)]
    exact h emitter current hcurrent

/-- An operation that records one instruction without an output and without a
    body grows the function by it. -/
theorem grows_emit {α : Type} {instruction : Instruction} {next : FunctionBuilder → EmitterM α}
    (houtputs : instruction.outputs = []) (hsteps : instruction.steps = [instruction])
    (hnext : ∀ (emitter : Emitter) (builder : FunctionBuilder),
      ((next builder).runFrom emitter).2 = emitter.emitting (builder.emit instruction)) :
    Moves Grows (builder >>= next) := by
  refine grows_builder_bind fun emitter builder hcurrent => (grows_iff hcurrent).mpr ⟨{ code := [instruction] }, ?_, ?_, ?_⟩
  · rw [hnext, FunctionBuilder.emit_eq_extend]
  · exact Fragment.orderly_of_buffers_eq_nil rfl (by simp [blockOutputs, houtputs, FunctionBuilder.loopRegisters])
  · simp [blockSteps, hsteps]

/-- The same for an instruction with an output, which goes to the next
    register. -/
theorem grows_emitWithOutput {instruction : RegisterId → Instruction} (houtputs : ∀ output, (instruction output).outputs = [output])
    (hsteps : ∀ output, (instruction output).steps = [instruction output]) : Moves Grows (emitWithOutput instruction) := by
  refine grows_builder_bind fun emitter builder hcurrent =>
    (grows_iff hcurrent).mpr ⟨{ code := [instruction ⟨builder.nextRegister⟩], registers := 1 }, ?_, ?_, ?_⟩
  · rw [FunctionBuilder.newRegister_eq_extend]
    change emitter.emitting ((builder.extend { registers := 1 }).emit (instruction ⟨builder.nextRegister⟩)) = _
    rw [FunctionBuilder.emit_eq_extend, FunctionBuilder.extend_extend]
    rfl
  · exact Fragment.orderly_of_buffers_eq_nil rfl (by simp [blockOutputs, houtputs, FunctionBuilder.loopRegisters])
  · simp [blockSteps, hsteps]

theorem grows_binaryOperand (op : BinaryOp) (a b : Operand) : Moves Grows (binaryOperand op a b) := by
  unfold binaryOperand
  split
  · exact .bind (.lift _) fun _ => .pure _
  · exact .bind (grows_emitWithOutput (fun _ => rfl) fun _ => rfl) fun _ => .pure _

end Emitter

namespace Emit

open Emitter (Grows)

/-- To load an operand records one instruction at most. For immediates and
    registers there is none. -/
theorem grows_operand (value : Value) : Moves Grows (operand value) := by
  refine .bind (.lift _) fun _ => ?_
  split
  · exact .pure _
  · exact .pure _
  · exact .bind (Emitter.grows_emitWithOutput (fun _ => rfl) fun _ => rfl) fun _ => .pure _
  · exact .fail _

theorem grows_indexOperand (coordinate : Scalar) (extent : Nat) : Moves Grows (indexOperand coordinate extent) := by
  unfold indexOperand
  split
  · refine .bind (.lift _) fun _ => ?_
    split
    · exact .fail _
    · exact .pure _
  · exact .bind (.lift _) fun _ => grows_operand _

theorem grows_offsetOperand (offset : Operand) (extents increments : List Nat) (coordinates : List Scalar) :
    Moves Grows (offsetOperand offset extents increments coordinates) := by
  induction extents generalizing offset increments coordinates with
  | nil => exact .pure _
  | cons extent extents ih =>
    cases increments with
    | nil => exact .pure _
    | cons increment increments =>
      cases coordinates with
      | nil => exact .pure _
      | cons coordinate coordinates =>
        exact .bind (grows_indexOperand _ _) fun _ => .bind (Emitter.grows_binaryOperand _ _ _) fun _ =>
          .bind (Emitter.grows_binaryOperand _ _ _) fun _ => ih _ _ _

/-- The place of an element is worked out by several instructions. None of them
    is a loop. -/
theorem grows_element (value : Value) (coordinates : List Scalar) : Moves Grows (element value coordinates) := by
  refine .bind (.lift _) fun _ => ?_
  split
  · exact .bind (grows_offsetOperand _ _ _ _) fun _ => .pure _
  · exact .pure _
  · exact .pure _
  · exact .fail _

theorem grows_store (destination source : Value) : Moves Grows (store destination source) := by
  refine .bind (.lift _) fun _ => .bind (.lift _) fun _ => ?_
  split
  · exact .bind (grows_operand _) fun _ => Emitter.grows_emit rfl rfl fun _ _ => rfl
  · exact .fail _
  · exact .fail _
  · exact .fail _

theorem grows_binary (op : BinaryOp) (a b : Value) : Moves Grows (binary op a b) :=
  .bind (.lift _) fun _ => .bind (grows_operand _) fun _ => .bind (grows_operand _) fun _ =>
    .bind (Emitter.grows_binaryOperand _ _ _) fun _ => .pure _

theorem grows_callArguments (values : List Value) : Moves Grows (callArguments values) := by
  induction values with
  | nil => exact .pure _
  | cons value values ih =>
    refine .bind ?_ fun _ => .bind ih fun _ => .pure _
    unfold callArgument
    split
    · exact .pure _
    · exact .bind (grows_operand _) fun _ => .pure _
    · exact .bind (grows_operand _) fun _ => .pure _
    · exact .fail _

/-- A call records the loading of its arguments and then itself. If it has a
    result, a register is taken for it. -/
theorem grows_call (function : FunctionDeclaration) (args : List Value) : Moves Grows (call function args) := by
  refine .bind (.of_eq fun _ => rfl) fun emitter => .bind (grows_callArguments _) fun _ => ?_
  split
  · exact .bind (Emitter.grows_emitWithOutput (fun _ => rfl) fun _ => rfl) fun _ => .pure _
  · exact Emitter.grows_emit rfl rfl fun _ _ => rfl

/-- One more buffer, if the budget has room for it, leaves the function within
    the budget. -/
theorem orderly_newBuffer {config : EmitterConfig} {builder : FunctionBuilder} {dtype : DType}
    {used length requested needed : Nat} (hcount : ¬config.maxBuffers ≤ builder.localBuffers.length)
    (hused : BufferDeclaration.totalBytes builder.localBuffers = .ok used)
    (hrequested : Word.mul length dtype.size = .ok requested) (hneeded : Word.add used requested = .ok needed)
    (hbytes : ¬config.maxStorageBytes < needed) :
    ({ buffers := [⟨⟨builder.buffers.size⟩, dtype, length, .own⟩] } : Fragment).Orderly config builder where
  outputs_eq := rfl
  id_eq k declaration hget := by
    cases k with
    | zero => cases hget; rfl
    | succ k => cases hget
  source_eq declaration hmem := by rw [List.mem_singleton.mp hmem]
  inBudget _ := by
    have hlocal : (builder.extend { buffers := [⟨⟨builder.buffers.size⟩, dtype, length, .own⟩] }).localBuffers =
        builder.localBuffers ++ [⟨⟨builder.buffers.size⟩, dtype, length, .own⟩] := by
      simp [FunctionBuilder.localBuffers, BufferDeclaration.isLocal]
    refine ⟨?_, needed, ?_, Nat.le_of_not_lt hbytes⟩
    · rw [hlocal, List.length_append, List.length_singleton]
      exact Nat.lt_of_not_le hcount
    · rw [BufferDeclaration.totalBytes] at hused ⊢
      rw [hlocal, List.foldlM_append, hused, ok_bind, List.foldlM_cons, BufferDeclaration.bytes, hrequested, ok_bind,
        hneeded]
      rfl

/-- An allocation declares the next buffer if the budget allows for it, and
    records no code. -/
theorem grows_allocate (dtype : DType) (layout : Layout) : Moves Grows (allocate dtype layout) := by
  intro emitter
  unfold allocate
  rw [Stateful.runFrom_bind_of_ok (Stateful.runFrom_get emitter)]
  cases hcurrent : emitter.current with
  | none =>
    rw [Stateful.runFrom_bind_of_error (Emitter.runFrom_builder_of_none hcurrent)]
    exact .refl emitter
  | some builder =>
    rw [Stateful.runFrom_bind_of_ok (Emitter.runFrom_builder hcurrent)]
    dsimp only
    split
    · exact .refl emitter
    · next hcount =>
      refine Stateful.order_lift_bind fun used hused => Stateful.order_lift_bind fun length _ =>
        Stateful.order_lift_bind fun requested hrequested => Stateful.order_lift_bind fun needed hneeded => ?_
      split
      · exact .refl emitter
      · next hbytes =>
        simp only [liftM_fault_eq_ok_iff] at hused hrequested hneeded
        refine (Emitter.grows_iff hcurrent).mpr ⟨_, ?_, orderly_newBuffer hcount hused hrequested hneeded hbytes, rfl⟩
        rw [FunctionBuilder.newBuffer_eq_extend]
        rfl

end Emit

/-- Whatever an operation is applied to, and however it ends. -/
theorem Operation.grows_emit (operation : Operation) : Moves Emitter.Grows operation.emit := by
  cases operation with
  | allocate dtype layout => exact .map _ (Emit.grows_allocate dtype layout)
  | element value coordinates => exact .map _ (Emit.grows_element value coordinates)
  | load value => exact .map _ (.bind (Emit.grows_operand value) fun _ => .pure _)
  | store destination source => exact .map _ (Emit.grows_store destination source)
  | binary op a b => exact .map _ (Emit.grows_binary op a b)
  | call function args => exact Emit.grows_call function args

/-- The result of a function is loaded like any other operand. It may have to be
    of another type, which is an error. -/
theorem Emitter.grows_resultOperand (function : FunctionDeclaration) (result : Option Value) :
    Moves Grows (resultOperand function result) := by
  unfold resultOperand
  split
  · exact .bind (.lift _) fun _ => .bind (Emit.grows_operand _) fun _ => .pure _
  · exact .pure _
  · exact .fail _
  · exact .fail _

end StagedArrays
