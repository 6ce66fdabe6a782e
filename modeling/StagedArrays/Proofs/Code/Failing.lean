import StagedArrays.Proofs.Code.Targets
import StagedArrays.Proofs.Context.Overflow
import StagedArrays.Proofs.Script.Handover

namespace StagedArrays

open Stateful (Fails)

/-- Whether an error tells of a symbol that leads nowhere. Compiled modules are
    shown never to report one. -/
def ValueError.Unresolved : ValueError → Prop
  | unresolvedSymbol _ => True
  | _ => False

/-- What execution fails for without the functions it calls: an error, but not
    that a symbol leads nowhere, or an overflow. -/
def Failure.Own : Failure ValueError → Prop
  | error cause => ¬cause.Unresolved
  | fault found => found.IsOverflow

/-- What execution itself fails for is plain. The faults of host functions may
    be others. -/
theorem Failure.Own.plain {failure : Failure ValueError} (h : failure.Own) : failure.Plain := by
  cases failure with
  | error cause => trivial
  | fault found => exact h

theorem FailsOnly.own {α : Type} {x : Except ValueError α} (h : FailsOnly (fun cause => ¬cause.Unresolved) x) :
    FailsOnly Failure.Own (liftM x : Outcome α) := mapError h fun _ => id

theorem FailsOnly.own_fault {α : Type} {x : Except Fault α} (h : FailsOnly Fault.IsOverflow x) :
    FailsOnly Failure.Own (liftM x : Outcome α) := mapError h fun _ => id

namespace Stateful.Fails

variable {ε σ α : Type} {reason : Failure ε → Prop}

theorem pure (a : α) : Fails reason (pure a : Stateful ε σ α) := fun _ => .ok a

theorem get : Fails reason (get : Stateful ε σ σ) := fun state => .ok state

theorem set (next : σ) : Fails reason (set next : Stateful ε σ PUnit) := fun _ => .ok _

theorem modify (f : σ → σ) : Fails reason (modify f : Stateful ε σ PUnit) := fun _ => .ok _

theorem fail {cause : ε} (h : reason (.error cause)) : Fails reason (fail cause : Stateful ε σ α) := fun _ => .of_error h

theorem lift {m : Type → Type} [MonadLiftT m (Except (Failure ε))] {x : m α}
    (h : FailsOnly reason (liftM x : Except (Failure ε) α)) : Fails reason (liftM x : Stateful ε σ α) := fun _ => h

end Stateful.Fails

/-- Integer arithmetic fails for reasons of its own: no symbol is missing
    there. -/
theorem BinaryOp.checked_fails (op : BinaryOp) (low high a b : Int) :
    FailsOnly (fun cause => ¬cause.Unresolved) (op.checked low high a b) := by
  unfold checked
  split
  · exact .of_error id
  · dsimp only
    split
    · exact .ok _
    · exact .of_error id

/-- The same for immediates of any type. -/
theorem Numeric.binary_fails (x : Numeric) (op : BinaryOp) (y : Numeric) :
    FailsOnly (fun cause => ¬cause.Unresolved) (x.binary op y) := by
  unfold binary
  split
  · exact .ok _
  · exact .ok _
  · exact .ok _
  · exact .ok _
  · exact .bind (op.checked_fails _ _ _ _) fun _ => .ok _
  · exact .bind (op.checked_fails _ _ _ _) fun _ => .ok _
  · exact .of_error id

/-- An immediate that is no index is no missing symbol either. -/
theorem Numeric.asIndex_fails (x : Numeric) : FailsOnly (fun cause => ¬cause.Unresolved) x.asIndex := by
  unfold asIndex
  split
  · exact .ok _
  · exact .of_error id

/-- Nor is a store that does not fit its buffer. -/
theorem HostBuffer.set_fails (buffer : HostBuffer) (index : Nat) (x : Numeric) :
    FailsOnly (fun cause => ¬cause.Unresolved) (buffer.set index x) := by
  unfold set
  split
  · split
    · exact .ok _
    · exact .of_error id
  · exact .of_error id

namespace Frame

variable (frame : Frame) (heap : Heap)

/-- Registers without a value are reported as such. -/
theorem operand_fails (operand : Operand) : FailsOnly (fun cause => ¬cause.Unresolved) (frame.operand operand) := by
  unfold Frame.operand
  split
  · exact .ok _
  · split
    · exact .ok _
    · exact .of_error id

/-- An address fails because a buffer is not bound, an index is none, or a sum
    overflows. -/
theorem address_fails (buffer : BufferId) (offset : Operand) : FailsOnly Failure.Own (frame.address buffer offset) := by
  unfold address
  split
  · exact .of_error id
  · exact .bind (.own (frame.operand_fails offset)) fun x => .bind (.own x.asIndex_fails) fun _ =>
      .bind (.own_fault (Word.add_fails _ _)) fun _ => .ok _

/-- To look up an argument of a call fails for a reason of execution itself.
    There is no host function in it. -/
theorem argument_fails (arg : CallArgument) : FailsOnly Failure.Own (frame.argument arg) := by
  cases arg with
  | scalar operand => exact .bind (.own (frame.operand_fails operand)) fun _ => .ok _
  | buffer buffer offset => exact .bind (frame.address_fails _ _) fun _ => .ok _

/-- Binding an argument fails for what the argument is, never for a symbol.
    Arguments are bound before any code is executed. -/
theorem bindArgument_fails (function : String) (binding : ParameterBinding) (type : ValueType) (arg : HostArgument) :
    FailsOnly Failure.Own (frame.bindArgument heap function binding type arg) := by
  unfold bindArgument
  split
  · split
    · exact .of_error id
    · exact .ok _
  · dsimp only
    split
    · exact .of_error id
    · refine .bind (.own_fault type.layout.memorySize_fails) fun _ => .bind (.own_fault (Word.add_fails _ _)) fun _ => ?_
      split
      · exact .of_error id
      · exact .ok _
  · exact .of_error id

/-- The same for all of them, in order. -/
theorem bindArguments_fails (function : String) (bindings : List ParameterBinding) (types : List ValueType)
    (args : List HostArgument) : FailsOnly Failure.Own (bindArguments heap function bindings types args frame) := by
  fun_induction bindArguments heap function bindings types args frame with
  | case1 binding bindings type types arg args frame ih =>
    exact .bind (frame.bindArgument_fails heap function binding type arg) ih
  | case2 => exact .ok _

/-- Storage of a call's own fails only for lack of room. That is a fault, and no
    fault tells of a symbol. -/
theorem fails_bindLocals (declarations : List BufferDeclaration) :
    Fails Failure.Own (bindLocals declarations frame) := by
  induction declarations generalizing frame with
  | nil => exact .pure _
  | cons declaration rest ih =>
    unfold bindLocals
    split
    · refine .bind (.lift (.own_fault (HostBuffer.allocate_fails _ _))) fun _ => ?_
      exact .bind (.bind .get fun _ => .bind (.set _) fun _ => .pure _) fun _ => ih _
    · exact ih _

end Frame

namespace RunM

theorem fails_operand (operand : Operand) : Fails Failure.Own (RunM.operand operand) :=
  .bind (.bind .get fun _ => .pure _) fun frame => .lift (.own (frame.operand_fails operand))

theorem fails_address (buffer : BufferId) (offset : Operand) : Fails Failure.Own (address buffer offset) :=
  .bind (.bind .get fun _ => .pure _) fun frame => .lift (frame.address_fails buffer offset)

/-- Collecting the arguments of a call fails before the symbol is looked up, for
    reasons of its own. -/
theorem fails_arguments (args : List CallArgument) : Fails Failure.Own (arguments args) := by
  induction args with
  | nil => exact .pure _
  | cons arg args ih =>
    exact .bind (.bind .get fun _ => .pure _) fun frame => .bind (.lift (frame.argument_fails arg)) fun _ =>
      .bind ih fun _ => .pure _

/-- A call that gives no result where one is to be kept is an error that names
    the symbol, but not as a missing one. -/
theorem fails_keep (symbol : String) (result : Option Numeric) (output : Option RegisterId) :
    Fails Failure.Own (keep symbol result output) := by
  unfold keep
  split
  · exact .pure _
  · split
    · exact .modify _
    · exact .fail id

end RunM

section Targets

variable {reason : Failure ValueError → Prop} {call : String → HostFunction}

mutual

/-- An instruction fails for reasons of its own, or for those of what it calls.
    By recursion on the code. -/
theorem Instruction.fails_run (hown : ∀ failure : Failure ValueError, failure.Own → reason failure) :
    (instruction : Instruction) → (∀ symbol ∈ instruction.targets, ∀ args, Fails reason (call symbol args)) →
      Fails reason (instruction.run call)
  | .binary output op a b, _ => by
    unfold Instruction.run
    refine .mono (.bind (RunM.fails_operand a) fun x => .bind (RunM.fails_operand b) fun y => ?_) hown
    exact .bind (.lift (.own (x.binary_fails op y))) fun _ => .modify _
  | .load output buffer offset, _ => by
    unfold Instruction.run
    refine .mono (.bind (RunM.fails_address buffer offset) fun place => ?_) hown
    refine .bind (.focus _ (.bind .get fun _ => .pure _)) fun storage => ?_
    split
    · exact .modify _
    · exact .fail id
  | .store buffer offset value, _ => by
    unfold Instruction.run
    refine .mono (.bind (RunM.fails_address buffer offset) fun place => ?_) hown
    refine .bind (RunM.fails_operand value) fun x => .focus _ (.bind (.bind .get fun _ => .pure _) fun storage => ?_)
    exact .bind (.lift (.own (storage.set_fails _ x))) fun _ => .modify _
  | .loop induction extent body, h => by
    unfold Instruction.run
    by_cases hextent : extent = 0
    · rw [hextent]
      exact fun _ => .ok _
    · rw [Instruction.targets, if_neg hextent] at h
      exact .repeatFrom (fun index => .bind (.modify _) fun _ => fails_runBlock hown body h) extent 0
  | .call symbol args output, h => by
    unfold Instruction.run
    refine .bind (.mono (RunM.fails_arguments args) hown) fun arguments => ?_
    refine .bind (.focus _ (h symbol ?_ arguments)) fun result => .mono (RunM.fails_keep symbol result output) hown
    rw [Instruction.targets]
    exact List.mem_singleton_self symbol

/-- The same for the instructions of a block. Only calls that can be executed
    count. -/
theorem fails_runBlock (hown : ∀ failure : Failure ValueError, failure.Own → reason failure) :
    (block : List Instruction) → (∀ symbol ∈ blockTargets block, ∀ args, Fails reason (call symbol args)) →
      Fails reason (runBlock call block)
  | [], _ => by
    unfold runBlock
    exact fun _ => .ok _
  | instruction :: rest, h => by
    unfold runBlock
    rw [blockTargets] at h
    obtain ⟨hfirst, hrest⟩ := List.forall_mem_append.mp h
    exact .bind (instruction.fails_run hown hfirst) fun _ => fails_runBlock hown rest hrest

end

/-- A call fails for a reason of execution's own, or as a target of the function
    does. -/
theorem EmittedFunction.fails_invoke (function : EmittedFunction)
    (hown : ∀ failure : Failure ValueError, failure.Own → reason failure)
    (h : ∀ symbol ∈ blockTargets function.body, ∀ args, Fails reason (call symbol args)) (args : List HostArgument) :
    Fails reason (function.invoke call args) := by
  have henter : Fails Failure.Own (function.enter args) := by
    have hbind : Fails Failure.Own (do
        let bound ← Frame.bindArguments (← get) function.name function.bindings function.parameters args {}
        Frame.bindLocals function.buffers bound : HeapM Frame) :=
      .bind .get fun heap => .bind (.lift (Frame.bindArguments_fails _ heap _ _ _ _)) fun bound =>
        Frame.fails_bindLocals bound _
    unfold enter
    split
    · exact .bind (.fail id) fun _ => hbind
    · exact hbind
  rw [invoke_eq]
  refine .bind (.mono henter hown) fun frame heap => ?_
  have hexecute : Fails reason (function.execute call) := by
    refine .bind (fails_runBlock hown function.body h) fun _ => .mono ?_ hown
    split
    · exact .bind (RunM.fails_operand _) fun _ => .pure _
    · exact .pure _
  exact hexecute ⟨frame, heap⟩

end Targets

end StagedArrays
