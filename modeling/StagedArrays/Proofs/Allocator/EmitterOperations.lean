import StagedArrays.Context.Definition
import StagedArrays.Proofs.Allocator.Advance

namespace StagedArrays

open Stateful (Moves)

namespace FunctionBuilder

/-- To record an instruction declares no buffer. The block that it goes to does
    not matter. -/
@[simp]
theorem buffers_emit (builder : FunctionBuilder) (instruction : Instruction) :
    (builder.emit instruction).buffers = builder.buffers := by
  unfold emit
  split <;> rfl

@[simp]
theorem buffers_closeBlock (builder : FunctionBuilder) : builder.closeBlock.2.buffers = builder.buffers := by
  unfold closeBlock
  split <;> rfl

end FunctionBuilder

namespace Emitter

/-- What is done with the function in progress. Without one the operation fails,
    and nothing has happened. -/
theorem moves_builder_bind {α : Type} {next : FunctionBuilder → EmitterM α}
    (h : ∀ (emitter : Emitter) (builder : FunctionBuilder), emitter.current = some builder →
      emitter.Keeps ((next builder).runFrom emitter).2) : Moves Keeps (builder >>= next) := by
  intro emitter
  cases hcurrent : emitter.current with
  | none =>
    have hbuilder : builder.runFrom emitter = (.error (.error (.invalidArgument .noOpenFunction)), emitter) := by
      simp [builder, Stateful.runFrom_bind, hcurrent]
    rw [Stateful.runFrom_bind_of_error hbuilder]
    exact .refl emitter
  | some current =>
    have hbuilder : builder.runFrom emitter = (.ok current, emitter) := by
      simp [builder, Stateful.runFrom_bind, hcurrent]
    rw [Stateful.runFrom_bind_of_ok hbuilder]
    exact h emitter current hcurrent

/-- What declares nothing leaves the buffers of the function in progress
    alone. -/
theorem moves_builder_set {α : Type} {next : FunctionBuilder → EmitterM α} (change : FunctionBuilder → FunctionBuilder)
    (hnext : ∀ (emitter : Emitter) (builder : FunctionBuilder),
      ((next builder).runFrom emitter).2 = { emitter with current := some (change builder) })
    (hbuffers : ∀ builder, (change builder).buffers = builder.buffers) : Moves Keeps (builder >>= next) := by
  refine moves_builder_bind fun emitter builder hcurrent => ?_
  rw [hnext]
  exact keeps_current hcurrent (hbuffers builder ▸ List.prefix_refl _)

theorem moves_emit (instruction : Instruction) : Moves Keeps (do setBuilder ((← builder).emit instruction)) :=
  moves_builder_set (·.emit instruction) (fun _ _ => rfl) (·.buffers_emit instruction)

theorem moves_emitWithOutput (instruction : RegisterId → Instruction) : Moves Keeps (emitWithOutput instruction) :=
  moves_builder_set (fun builder => builder.newRegister.2.emit (instruction builder.newRegister.1)) (fun _ _ => rfl)
    fun _ => by rw [FunctionBuilder.buffers_emit]; rfl

/-- An operation on operands is folded or recorded in the current block. In
    either case the emitter keeps its scope and its declarations. -/
theorem moves_binaryOperand (op : BinaryOp) (a b : Operand) : Moves Keeps (binaryOperand op a b) := by
  unfold binaryOperand
  split
  · exact .bind (.lift _) fun _ => .pure _
  · exact .bind (moves_emitWithOutput _) fun _ => .pure _

end Emitter

namespace Emit

/-- Reading a value as an operand may record a load and declares nothing. -/
theorem moves_operand (value : Value) : Moves Emitter.Keeps (operand value) := by
  refine .bind (.lift _) fun _ => ?_
  split
  · exact .pure _
  · exact .pure _
  · exact .bind (Emitter.moves_emitWithOutput _) fun _ => .pure _
  · exact .fail _

/-- The same for a coordinate, which may be converted. -/
theorem moves_indexOperand (coordinate : Scalar) (extent : Nat) :
    Moves Emitter.Keeps (indexOperand coordinate extent) := by
  unfold indexOperand
  split
  · refine .bind (.lift _) fun _ => ?_
    split
    · exact .fail _
    · exact .pure _
  · exact .bind (.lift _) fun _ => moves_operand _

/-- The address of an element is computed by recorded operations, one dimension
    after another. -/
theorem moves_offsetOperand (offset : Operand) (extents increments : List Nat) (coordinates : List Scalar) :
    Moves Emitter.Keeps (offsetOperand offset extents increments coordinates) := by
  induction extents generalizing offset increments coordinates with
  | nil => exact .pure _
  | cons extent extents ih =>
    cases increments with
    | nil => exact .pure _
    | cons increment increments =>
      cases coordinates with
      | nil => exact .pure _
      | cons coordinate coordinates =>
        exact .bind (moves_indexOperand _ _) fun _ => .bind (Emitter.moves_binaryOperand _ _ _) fun _ =>
          .bind (Emitter.moves_binaryOperand _ _ _) fun _ => ih _ _ _

/-- Storage is declared at the end of the declarations of the function in
    progress, and nothing else is changed. -/
theorem moves_allocate (dtype : DType) (layout : Layout) : Moves Emitter.Keeps (allocate dtype layout) := by
  refine .bind (.of_eq fun _ => rfl) fun emitter => Emitter.moves_builder_bind fun emitter builder hcurrent => ?_
  dsimp only
  split
  · exact .refl emitter
  · refine Stateful.order_lift_bind fun used _ => Stateful.order_lift_bind fun length _ =>
      Stateful.order_lift_bind fun requested _ => Stateful.order_lift_bind fun needed _ => ?_
    split
    · exact .refl emitter
    · refine Emitter.keeps_current hcurrent ?_
      simp [FunctionBuilder.newBuffer]

/-- An element is an address in storage there was, and takes none. -/
theorem moves_element (value : Value) (coordinates : List Scalar) :
    Moves Emitter.Keeps (element value coordinates) := by
  refine .bind (.lift _) fun _ => ?_
  split
  · exact .bind (moves_offsetOperand _ _ _ _) fun _ => .pure _
  · exact .pure _
  · exact .pure _
  · exact .fail _

theorem moves_load (value : Value) : Moves Emitter.Keeps (load value) := .bind (moves_operand _) fun _ => .pure _

/-- A store reads its source as an operand and adds one instruction. -/
theorem moves_store (destination source : Value) : Moves Emitter.Keeps (store destination source) := by
  refine .bind (.lift _) fun _ => .bind (.lift _) fun _ => ?_
  split
  · exact .bind (moves_operand _) fun _ => Emitter.moves_emit _
  · exact .fail _
  · exact .fail _
  · exact .fail _

theorem moves_binary (op : BinaryOp) (a b : Value) : Moves Emitter.Keeps (binary op a b) :=
  .bind (.lift _) fun _ => .bind (moves_operand _) fun _ => .bind (moves_operand _) fun _ =>
    .bind (Emitter.moves_binaryOperand _ _ _) fun _ => .pure _

/-- Opening the loops of a nest starts a block for each, and declares
    nothing. -/
theorem moves_openLoops (extents : List Nat) : Moves Emitter.Keeps (openLoops extents) := by
  induction extents with
  | nil => exact .pure _
  | cons extent extents ih =>
    refine Emitter.moves_builder_bind fun emitter builder hcurrent => ?_
    have hopen : emitter.Keeps { emitter with current := some builder.newRegister.2.openBlock } :=
      Emitter.keeps_current hcurrent (List.prefix_refl _)
    exact hopen.trans ((ih.bind fun _ => .pure _) _)

/-- Closing the loops puts the blocks together again from the inside out. -/
theorem moves_closeLoops (registers : List RegisterId) (extents : List Nat) :
    Moves Emitter.Keeps (closeLoops registers extents) := by
  induction registers generalizing extents with
  | nil => exact .pure _
  | cons register registers ih =>
    cases extents with
    | nil => exact .pure _
    | cons extent extents =>
      refine .bind (ih _) fun _ => Emitter.moves_builder_set
        (fun builder => builder.closeBlock.2.emit (.loop register extent builder.closeBlock.1)) (fun _ _ => rfl)
        fun _ => by simp

end Emit

namespace Emitter

/-- Starting a function is what raises the scope, so that storage of one
    function is never taken for that of the next. -/
theorem moves_startFunction (function : FunctionDeclaration) : Moves Advances (startFunction function) := by
  intro emitter
  simp only [startFunction, Stateful.runFrom_bind, Stateful.runFrom_get]
  split
  · exact .refl emitter
  · refine Stateful.order_lift_bind fun started _ => ?_
    exact advances_begin started.2

/-- Ending a function, with success or not, leaves no function in progress and
    the scope as it is. -/
theorem moves_endFunction (outcome : Except (Failure ValueError) (Option Operand)) :
    Moves Keeps (endFunction outcome) := by
  refine moves_builder_bind fun emitter builder _ => ?_
  have hnone : emitter.Keeps { emitter with current := none } := ⟨rfl, nofun⟩
  refine hnone.trans (Moves.bind (.settle _) (fun _ => .bind (.lift _) fun _ => ?_) _)
  intro ended
  exact ⟨rfl, fun builder hcurrent => ⟨builder, hcurrent, List.prefix_refl _⟩⟩

/-- Handing back a result reads it as an operand. -/
theorem moves_resultOperand (function : FunctionDeclaration) (result : Option Value) :
    Moves Keeps (resultOperand function result) := by
  unfold resultOperand
  split
  · exact .bind (.lift _) fun _ => .bind (Emit.moves_operand _) fun _ => .pure _
  · exact .pure _
  · exact .fail _
  · exact .fail _

end Emitter

end StagedArrays
