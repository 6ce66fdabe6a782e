import StagedArrays.Proofs.Script.Arguments
import StagedArrays.Proofs.Script.Scoped

namespace StagedArrays

open Stateful (Moves)

/-- Whether an error tells of a register that has not been assigned, or of a
    buffer that is not bound. -/
def ValueError.Dangling : ValueError → Prop
  | .invalidArgument (.unassignedRegister _) | .invalidArgument (.unboundBuffer _) => True
  | _ => False

def Failure.Dangling : Failure ValueError → Prop
  | .error cause => cause.Dangling
  | .fault _ => False

/-- Whether an outcome is no error about a register or a buffer that is
    missing. -/
def Outcome.Resolved {α : Type} (outcome : Outcome α) : Prop := ∀ failure, outcome = .error failure → ¬failure.Dangling

/-- Whether a function never fails so. Of its arguments nothing is assumed. -/
def HostFunction.Resolves (function : HostFunction) : Prop :=
  ∀ args heap, Outcome.Resolved ((function args).runFrom heap).1

namespace Outcome

variable {σ α β : Type}

theorem resolved_ok (value : α) : Outcome.Resolved (.ok value : Outcome α) := fun _ heq => nomatch heq

theorem resolved_error {cause : ValueError} (h : ¬cause.Dangling) : Outcome.Resolved (.error (.error cause) : Outcome α) := by
  rintro _ ⟨⟩
  exact h

/-- A fault is no error about something missing. -/
theorem resolved_liftFault (x : Except Fault α) : Outcome.Resolved (liftM x : Outcome α) := by
  rintro failure heq
  cases x with
  | error fault => cases heq; exact id
  | ok value => cases heq

/-- Neither is an error of another kind. -/
theorem resolved_liftError {x : Except ValueError α} (h : ∀ cause, x = .error cause → ¬cause.Dangling) :
    Outcome.Resolved (liftM x : Outcome α) := by
  rintro failure heq
  cases x with
  | error cause => cases heq; exact h cause rfl
  | ok value => cases heq

/-- A computation in two parts lacks nothing if neither does. The second is
    looked at where the first succeeds. -/
theorem Resolved.bind {x : Outcome α} {next : α → Outcome β} (h : Outcome.Resolved x)
    (hnext : ∀ value, x = .ok value → Outcome.Resolved (next value)) : Outcome.Resolved (x >>= next) := by
  cases x with
  | error failure => exact fun _ heq => h _ (by cases heq; rfl)
  | ok value => exact hnext value rfl

/-- A sequence of actions, where each is sure of what it needs. The second one
    begins in the state that the first one leaves. -/
theorem resolved_bind {action : Stateful ValueError σ α} {next : α → Stateful ValueError σ β} {state : σ}
    (h : Outcome.Resolved (action.runFrom state).1)
    (hnext : ∀ value after, action.runFrom state = (.ok value, after) → Outcome.Resolved ((next value).runFrom after).1) :
    Outcome.Resolved ((action >>= next).runFrom state).1 := by
  rw [Stateful.runFrom_bind]
  cases hrun : action.runFrom state with
  | mk outcome after =>
    cases outcome with
    | error failure => exact fun _ heq => h _ (by rw [hrun]; cases heq; rfl)
    | ok value => exact hnext value after hrun

end Outcome

theorem BinaryOp.not_dangling_of_checked {op : BinaryOp} {low high a b : Int} {cause : ValueError}
    (h : op.checked low high a b = .error cause) : ¬cause.Dangling := by
  unfold checked at h
  split at h
  · cases h; exact id
  · dsimp only at h
    split at h
    · cases h
    · cases h; exact id

/-- An operation on numbers never fails for lack of a register or a buffer. It
    knows of neither. -/
theorem Numeric.not_dangling_of_binary {x y : Numeric} {op : BinaryOp} {cause : ValueError}
    (h : x.binary op y = .error cause) : ¬cause.Dangling := by
  unfold binary at h
  split at h
  any_goals cases h
  · next a b =>
    cases hchecked : op.checked Int64.minValue.toInt Int64.maxValue.toInt a.toInt b.toInt with
    | error found =>
      rw [hchecked] at h
      cases h
      exact BinaryOp.not_dangling_of_checked hchecked
    | ok value =>
      rw [hchecked] at h
      cases h
  · next a b =>
    cases hchecked : op.checked Int32.minValue.toInt Int32.maxValue.toInt a.toInt b.toInt with
    | error found =>
      rw [hchecked] at h
      cases h
      exact BinaryOp.not_dangling_of_checked hchecked
    | ok value =>
      rw [hchecked] at h
      cases h
  · exact id

theorem Numeric.not_dangling_of_asIndex {x : Numeric} {cause : ValueError} (h : x.asIndex = .error cause) :
    ¬cause.Dangling := by
  unfold asIndex at h
  split at h
  · cases h
  · cases h; exact id

theorem HostBuffer.not_dangling_of_set {buffer : HostBuffer} {index : Nat} {x : Numeric} {cause : ValueError}
    (h : buffer.set index x = .error cause) : ¬cause.Dangling := by
  unfold set at h
  split at h
  · split at h
    · cases h
    · cases h; exact id
  · cases h; exact id

/-- A write to the host fails for its place or type at most. Buffers that a
    frame has bound are on the host. -/
theorem HeapM.resolved_write (ref : HostRef) (index : Nat) (x : Numeric) (heap : Heap) :
    Outcome.Resolved ((HeapM.write ref index x).runFrom heap).1 := by
  refine Outcome.resolved_bind (Outcome.resolved_ok _) fun buffer after _ => ?_
  refine Outcome.resolved_bind ?_ fun _ _ _ => Outcome.resolved_ok _
  exact Outcome.resolved_liftError fun cause => HostBuffer.not_dangling_of_set

namespace Frame

/-- Whether given buffers are bound and given registers are assigned. These are
    what code is closed over. -/
structure Provides (frame : Frame) (declared : List BufferId) (assigned : List RegisterId) : Prop where
  isSome_buffer : ∀ id ∈ declared, frame.buffers[id]?.isSome
  isSome_register : ∀ id ∈ assigned, frame.registers[id]?.isSome

variable {frame : Frame} {declared : List BufferId} {assigned : List RegisterId}

/-- An operand whose registers are assigned has a number. An immediate has one
    in any frame. -/
theorem Provides.exists_operand {operand : Operand} (h : frame.Provides declared assigned)
    (hoperand : operand.registers ⊆ assigned) : ∃ x, frame.operand operand = .ok x := by
  cases operand with
  | constant x => exact ⟨x, rfl⟩
  | register id =>
    obtain ⟨x, hx⟩ := Option.isSome_iff_exists.mp (h.isSome_register id (hoperand List.mem_cons_self))
    exact ⟨x, by rw [Frame.operand, hx]⟩

/-- An operand that reads assigned registers has a number. So there is nothing
    it could lack. -/
theorem Provides.resolved_operand {operand : Operand} (h : frame.Provides declared assigned)
    (hoperand : operand.registers ⊆ assigned) : Outcome.Resolved (liftM (frame.operand operand) : Outcome Numeric) := by
  obtain ⟨x, hx⟩ := h.exists_operand hoperand
  rw [hx]
  exact Outcome.resolved_ok x

/-- A bound buffer has an address at an offset whose registers are assigned,
    unless the address is out of reach. -/
theorem Provides.resolved_address {id : BufferId} {offset : Operand} (h : frame.Provides declared assigned)
    (hid : id ∈ declared) (hoffset : offset.registers ⊆ assigned) : Outcome.Resolved (frame.address id offset) := by
  obtain ⟨⟨ref, base⟩, hbound⟩ := Option.isSome_iff_exists.mp (h.isSome_buffer id hid)
  rw [Frame.address, hbound]
  refine .bind (h.resolved_operand hoffset) fun x _ => ?_
  refine .bind (Outcome.resolved_liftError fun cause => Numeric.not_dangling_of_asIndex) fun index _ => ?_
  exact .bind (Outcome.resolved_liftFault _) fun _ _ => Outcome.resolved_ok _

/-- An argument that is closed is found. Its buffer is bound and its place can
    be read. -/
theorem Provides.resolved_argument {argument : CallArgument} (h : frame.Provides declared assigned)
    (hargument : argument.Closed declared assigned) : Outcome.Resolved (frame.argument argument) := by
  cases argument with
  | scalar operand => exact .bind (h.resolved_operand hargument) fun _ _ => Outcome.resolved_ok _
  | buffer id offset => exact .bind (h.resolved_address hargument.1 hargument.2) fun _ _ => Outcome.resolved_ok _

end Frame

/-- A call in progress keeps its buffers where they are, and its registers
    assigned. -/
structure Running.Extends (running after : Running) : Prop where
  buffers_eq : after.frame.buffers = running.frame.buffers
  isSome_register : ∀ id : RegisterId, running.frame.registers[id]?.isSome → after.frame.registers[id]?.isSome

namespace Running

instance : IsPreorder Running Extends where
  refl _ := ⟨rfl, fun _ => id⟩
  trans _ _ _ h h' := ⟨h'.buffers_eq.trans h.buffers_eq, fun id hid => h'.isSome_register id (h.isSome_register id hid)⟩

variable {running after : Running} {declared : List BufferId} {assigned : List RegisterId}

/-- What a frame has in store it keeps. -/
theorem Extends.provides (h : running.Extends after) {registers : List RegisterId}
    (hregisters : ∀ id ∈ registers, after.frame.registers[id]?.isSome) (hprovides : running.frame.Provides declared assigned) :
    after.frame.Provides declared (registers ++ assigned) := by
  refine ⟨fun id hid => ?_, fun id hid => ?_⟩
  · rw [h.buffers_eq]
    exact hprovides.isSome_buffer id hid
  · rcases List.mem_append.mp hid with hid | hid
    · exact hregisters id hid
    · exact h.isSome_register id (hprovides.isSome_register id hid)

/-- Assigning a register moves no buffer and unassigns nothing. It may change
    what is in the register. -/
theorem extends_assign (running : Running) (register : RegisterId) (x : Numeric) :
    running.Extends ⟨running.frame.assign register x, running.heap⟩ := by
  refine ⟨rfl, fun id hid => ?_⟩
  rw [Frame.assign, Std.HashMap.getElem?_insert]
  split
  · rfl
  · exact hid

theorem isSome_register_assign (frame : Frame) (register : RegisterId) (x : Numeric) :
    (frame.assign register x).registers[register]?.isSome := by
  simp [Frame.assign]

end Running

/-- Working out what a call hands over changes nothing. -/
theorem RunM.moves_arguments {order : Running → Running → Prop} [IsPreorder Running order] (arguments : List CallArgument) :
    Moves order (RunM.arguments arguments) := by
  induction arguments with
  | nil => exact .pure _
  | cons argument arguments ih =>
    exact .bind (.of_eq fun _ => rfl) fun _ => .bind (.lift _) fun _ => .bind ih fun _ => .pure _

/-- An order on calls in progress along which the heap changes in any way, and
    given registers are assigned. -/
structure Running.Allows (order : Running → Running → Prop) (registers : List RegisterId) : Prop where
  heap : ∀ running heap, order running { running with heap }
  assign : ∀ running, ∀ register ∈ registers, ∀ x, order running ⟨running.frame.assign register x, running.heap⟩

theorem Running.allows_extends (registers : List RegisterId) : Running.Allows Running.Extends registers where
  heap _ _ := ⟨rfl, fun _ => id⟩
  assign running register _ x := running.extends_assign register x

variable {call : String → HostFunction}

namespace Running.Allows

variable {order : Running → Running → Prop} {registers more : List RegisterId}

theorem mono (h : Allows order more) (hsubset : registers ⊆ more) : Allows order registers :=
  ⟨h.heap, fun running register hmem => h.assign running register (hsubset hmem)⟩

theorem moves_onHeap {α : Type} (h : Allows order registers) (action : HeapM α) : Moves order (RunM.onHeap action) :=
  fun running => h.heap running _

theorem moves_assign (h : Allows order registers) {register : RegisterId} (hmem : register ∈ registers) (x : Numeric) :
    Moves order (RunM.assign register x) :=
  fun running => h.assign running register hmem x

variable [IsPreorder Running order]

/-- Keeping the result of a call assigns the output register at most. A call
    without an output assigns nothing. -/
theorem moves_keep {output : Option RegisterId} (h : Allows order output.toList) (symbol : String) (result : Option Numeric) :
    Moves order (RunM.keep symbol result output) := by
  cases output with
  | none => exact .pure _
  | some register =>
    cases result with
    | none => exact .fail _
    | some x => exact h.moves_assign List.mem_cons_self x

mutual

/-- Whatever is executed, and however it ends. By recursion on the code. -/
theorem moves_run : {instruction : Instruction} → Allows order instruction.outputs → Moves order (instruction.run call)
  | .binary output op a b, h =>
    .bind (.of_eq fun _ => rfl) fun _ => .bind (.of_eq fun _ => rfl) fun _ =>
      .bind (.lift _) fun _ => h.moves_assign List.mem_cons_self _
  | .load output buffer offset, h => by
    refine .bind (.of_eq fun _ => rfl) fun _ => .bind (h.moves_onHeap _) fun _ => ?_
    split
    · exact h.moves_assign List.mem_cons_self _
    · exact .fail _
  | .store buffer offset value, h =>
    .bind (.of_eq fun _ => rfl) fun _ => .bind (.of_eq fun _ => rfl) fun _ => h.moves_onHeap _
  | .loop induction extent body, h =>
    .repeatFrom (fun _ => .bind (h.moves_assign List.mem_cons_self _) fun _ =>
      (h.mono (List.subset_cons_self _ _)).moves_runBlock) extent 0
  | .call symbol args output, h =>
    .bind (RunM.moves_arguments _) fun _ => .bind (h.moves_onHeap _) fun _ => h.moves_keep _ _

/-- A block moves along an order that allows for its assignments. By recursion
    on the code. -/
theorem moves_runBlock : {code : List Instruction} → Allows order (blockOutputs code) → Moves order (runBlock call code)
  | [], _ => .pure _
  | _ :: _, h =>
    .bind (h.mono (List.subset_append_left _ _)).moves_run fun _ => (h.mono (List.subset_append_right _ _)).moves_runBlock

end

end Running.Allows

theorem RunM.extends_assign (register : RegisterId) (x : Numeric) : Moves Running.Extends (RunM.assign register x) :=
  fun running => running.extends_assign register x

theorem Instruction.extends_run (instruction : Instruction) : Moves Running.Extends (instruction.run call) :=
  (Running.allows_extends _).moves_run

theorem extends_runBlock (code : List Instruction) : Moves Running.Extends (runBlock call code) :=
  (Running.allows_extends _).moves_runBlock

/-- What an instruction assigns is assigned once it has been executed. If it has
    failed, that is not so. -/
theorem Instruction.isSome_of_run {instruction : Instruction} {running after : Running}
    (h : (instruction.run call).runFrom running = (.ok (), after)) :
    ∀ id ∈ instruction.assigns, after.frame.registers[id]?.isSome := by
  cases instruction with
  | store | loop => exact List.forall_mem_nil _
  | binary output op a b =>
    rw [assigns, List.forall_mem_singleton]
    obtain ⟨x, _, -, h⟩ := Stateful.runFrom_bind_eq_ok.mp h
    obtain ⟨y, _, -, h⟩ := Stateful.runFrom_bind_eq_ok.mp h
    obtain ⟨z, _, -, h⟩ := Stateful.runFrom_bind_eq_ok.mp h
    cases h
    exact Running.isSome_register_assign _ _ _
  | load output buffer offset =>
    rw [assigns, List.forall_mem_singleton]
    obtain ⟨⟨ref, index⟩, _, -, h⟩ := Stateful.runFrom_bind_eq_ok.mp h
    obtain ⟨found, _, -, h⟩ := Stateful.runFrom_bind_eq_ok.mp h
    split at h
    · cases h
      exact Running.isSome_register_assign _ _ _
    · cases h
  | call symbol args output =>
    obtain ⟨handed, _, -, h⟩ := Stateful.runFrom_bind_eq_ok.mp h
    obtain ⟨result, _, -, h⟩ := Stateful.runFrom_bind_eq_ok.mp h
    cases output with
    | none => exact List.forall_mem_nil _
    | some register =>
      rw [assigns, Option.toList_some, List.forall_mem_singleton]
      cases result with
      | none => cases h
      | some x =>
        cases h
        exact Running.isSome_register_assign _ _ _

section

variable {declared : List BufferId} {assigned : List RegisterId} {running after : Running}

/-- Executing an instruction adds what it assigns to what a frame has in
    store. -/
theorem Instruction.provides_of_run {instruction : Instruction}
    (h : (instruction.run call).runFrom running = (.ok (), after)) (hprovides : running.frame.Provides declared assigned) :
    after.frame.Provides declared (instruction.assigns ++ assigned) := by
  have hextends := @Instruction.extends_run call instruction running
  rw [h] at hextends
  exact hextends.provides (isSome_of_run h) hprovides

/-- After a block that has been executed, its registers are assigned besides
    those from before. -/
theorem provides_of_runBlock {code : List Instruction} (h : (runBlock call code).runFrom running = (.ok (), after))
    (hprovides : running.frame.Provides declared assigned) : after.frame.Provides declared (assignedBy assigned code) := by
  induction code generalizing running assigned with
  | nil =>
    cases h
    exact hprovides
  | cons instruction code ih =>
    obtain ⟨_, next, hfirst, hrest⟩ := Stateful.runFrom_bind_eq_ok.mp h
    exact ih hrest (instruction.provides_of_run hfirst hprovides)

/-- What an action keeps in store it has in store however often it is
    repeated. -/
theorem Running.provides_of_repeatFrom {body : Nat → RunM Unit} {count first : Nat}
    (hbody : ∀ index, Moves Running.Extends (body index))
    (h : (Stateful.repeatFrom body count first).runFrom running = (.ok (), after))
    (hprovides : running.frame.Provides declared assigned) : after.frame.Provides declared assigned := by
  have hextends := Moves.repeatFrom hbody count first running
  rw [h] at hextends
  exact hextends.provides (List.forall_mem_nil _) hprovides

/-- A register that has been assigned is provided. -/
theorem Frame.Provides.assign {frame : Frame} (h : frame.Provides declared assigned) (register : RegisterId) (x : Numeric) :
    (frame.assign register x).Provides declared (register :: assigned) := by
  have hassigned : ∀ id ∈ [register], (frame.assign register x).registers[id]?.isSome := by
    rw [List.forall_mem_singleton]
    exact Running.isSome_register_assign _ _ _
  exact (Running.extends_assign ⟨frame, ⟨#[]⟩⟩ register x).provides hassigned h

/-- A loop never lacks anything if its body never does. By induction on the
    number of passes. -/
theorem RunM.resolved_repeatFrom {body : Nat → RunM Unit} (hextends : ∀ index, Moves Running.Extends (body index))
    (hbody : ∀ index (running : Running), running.frame.Provides declared assigned →
      Outcome.Resolved ((body index).runFrom running).1)
    (count first : Nat) (hprovides : running.frame.Provides declared assigned) :
    Outcome.Resolved ((Stateful.repeatFrom body count first).runFrom running).1 := by
  induction count generalizing first running with
  | zero => exact Outcome.resolved_ok _
  | succ count ih =>
    refine Outcome.resolved_bind (hbody first running hprovides) fun _ after hrun => ih (first + 1) ?_
    have honce : (Stateful.repeatFrom body 1 first).runFrom running = (.ok (), after) := by
      rw [Stateful.repeatFrom, Stateful.runFrom_bind_of_ok hrun]
      rfl
    exact Running.provides_of_repeatFrom hextends honce hprovides

/-- The arguments of a closed call are found. -/
theorem RunM.resolved_arguments {arguments : List CallArgument} (hclosed : ∀ arg ∈ arguments, arg.Closed declared assigned)
    (hprovides : running.frame.Provides declared assigned) :
    Outcome.Resolved ((RunM.arguments arguments).runFrom running).1 := by
  induction arguments with
  | nil => exact Outcome.resolved_ok _
  | cons argument arguments ih =>
    obtain ⟨hargument, hrest⟩ := List.forall_mem_cons.mp hclosed
    refine Outcome.resolved_bind (Outcome.resolved_ok _) fun _ _ hframe => ?_
    cases hframe
    refine Outcome.resolved_bind (hprovides.resolved_argument hargument) fun _ _ hfirst => ?_
    rw [Stateful.runFrom_liftM, Prod.mk.injEq] at hfirst
    rw [← hfirst.2]
    exact Outcome.resolved_bind (ih hrest) fun _ _ _ => Outcome.resolved_ok _

/-- A call without a result where one is expected is an error about the call,
    not about a register. -/
theorem RunM.resolved_keep (symbol : String) (result : Option Numeric) (output : Option RegisterId) :
    Outcome.Resolved ((RunM.keep symbol result output).runFrom running).1 := by
  cases output with
  | none => exact Outcome.resolved_ok _
  | some register =>
    cases result with
    | none => exact Outcome.resolved_error id
    | some x => exact Outcome.resolved_ok _

mutual

/-- Closed code lacks nothing when its frame has in store what it takes for
    granted, unless a function that it calls does. -/
theorem Instruction.resolved_run {assigned : List RegisterId} {running : Running} :
    {instruction : Instruction} → (∀ symbol ∈ instruction.symbols, HostFunction.Resolves (call symbol)) →
      instruction.Closed declared assigned → running.frame.Provides declared assigned →
        Outcome.Resolved ((instruction.run call).runFrom running).1
  | .binary output op a b, _, hclosed, hprovides => by
    refine Outcome.resolved_bind (hprovides.resolved_operand hclosed.1) fun x _ hx => ?_
    cases (Prod.mk.inj hx).2
    refine Outcome.resolved_bind (hprovides.resolved_operand hclosed.2) fun y _ hy => ?_
    cases (Prod.mk.inj hy).2
    refine Outcome.resolved_bind ?_ fun _ _ _ => Outcome.resolved_ok _
    exact Outcome.resolved_liftError fun cause => Numeric.not_dangling_of_binary
  | .load output buffer offset, _, hclosed, hprovides => by
    refine Outcome.resolved_bind (hprovides.resolved_address hclosed.1 hclosed.2) fun _ _ _ => ?_
    refine Outcome.resolved_bind (Outcome.resolved_ok _) fun _ _ _ => ?_
    split
    · exact Outcome.resolved_ok _
    · exact Outcome.resolved_error id
  | .store buffer offset value, _, hclosed, hprovides => by
    refine Outcome.resolved_bind (hprovides.resolved_address hclosed.1 hclosed.2.1) fun _ _ haddress => ?_
    cases (Prod.mk.inj haddress).2
    refine Outcome.resolved_bind (hprovides.resolved_operand hclosed.2.2) fun _ _ _ => ?_
    exact HeapM.resolved_write _ _ _ _
  | .loop induction extent body, hcall, hclosed, hprovides => by
    refine RunM.resolved_repeatFrom (fun _ => .bind (RunM.extends_assign _ _) fun _ => extends_runBlock body)
      (fun index running hprovides => ?_) extent 0 hprovides
    refine Outcome.resolved_bind (Outcome.resolved_ok _) fun _ _ hassign => ?_
    cases hassign
    exact resolved_runBlock hcall hclosed (hprovides.assign induction _)
  | .call symbol args output, hcall, hclosed, hprovides => by
    refine Outcome.resolved_bind (RunM.resolved_arguments hclosed hprovides) fun handed _ _ => ?_
    refine Outcome.resolved_bind (hcall symbol List.mem_cons_self handed _) fun result _ _ => ?_
    exact RunM.resolved_keep symbol result output

/-- A closed block in a frame that provides for it lacks nothing. By recursion
    on the code. -/
theorem resolved_runBlock {assigned : List RegisterId} {running : Running} :
    {code : List Instruction} → (∀ symbol ∈ blockSymbols code, HostFunction.Resolves (call symbol)) →
      blockClosed declared assigned code → running.frame.Provides declared assigned →
        Outcome.Resolved ((runBlock call code).runFrom running).1
  | [], _, _, _ => Outcome.resolved_ok _
  | instruction :: code, hcall, hclosed, hprovides => by
    obtain ⟨hfirst, hrest⟩ := List.forall_mem_append.mp hcall
    refine Outcome.resolved_bind (Instruction.resolved_run hfirst hclosed.1 hprovides) fun _ _ hrun => ?_
    exact resolved_runBlock hrest hclosed.2 (Instruction.provides_of_run hrun hprovides)

end

end

/-- An instruction that the execution of a block comes to, and the call in
    progress by then. -/
inductive Visits (call : String → HostFunction) : List Instruction → Running → Instruction → Running → Prop where
  | head {instruction : Instruction} {rest : List Instruction} {running : Running} :
      Visits call (instruction :: rest) running instruction running
  | tail {first instruction : Instruction} {rest : List Instruction} {running next found : Running}
      (run_eq : (first.run call).runFrom running = (.ok (), next)) (visits : Visits call rest next instruction found) :
      Visits call (first :: rest) running instruction found
  | inside {induction : RegisterId} {extent index : Nat} {body rest : List Instruction} {instruction : Instruction}
      {running next found : Running} (lt_extent : index < extent)
      (run_eq : (Instruction.run call (.loop induction index body)).runFrom running = (.ok (), next))
      (visits : Visits call body ⟨next.frame.assign induction (.ofIndex index), next.heap⟩ instruction found) :
      Visits call (.loop induction extent body :: rest) running instruction found

namespace Visits

variable {code : List Instruction} {running found : Running} {instruction : Instruction} {declared : List BufferId}
  {assigned : List RegisterId}

/-- Wherever an execution comes to, its buffers are where they have been.
    Registers that were assigned are so still. -/
theorem running_extends (h : Visits call code running instruction found) : running.Extends found := by
  induction h with
  | head => exact refl_of Running.Extends _
  | @tail first _ _ running _ _ hrun _ ih =>
    have hextends := @Instruction.extends_run call first running
    rw [hrun] at hextends
    exact trans_of Running.Extends hextends ih
  | @inside induction _ index body _ _ running next _ _ hrun _ ih =>
    have hextends := @Instruction.extends_run call (.loop induction index body) running
    rw [hrun] at hextends
    exact trans_of Running.Extends hextends (trans_of Running.Extends (next.extends_assign induction _) ih)

/-- What closed code comes to finds everything that it reads. This includes the
    bodies of loops. -/
theorem exists_provides (h : Visits call code running instruction found) (hclosed : blockClosed declared assigned code)
    (hprovides : running.frame.Provides declared assigned) :
    ∃ assigned', instruction.Closed declared assigned' ∧ found.frame.Provides declared assigned' := by
  induction h generalizing assigned with
  | head => exact ⟨assigned, hclosed.1, hprovides⟩
  | tail hrun _ ih => exact ih hclosed.2 (Instruction.provides_of_run hrun hprovides)
  | inside _ hrun _ ih => exact ih hclosed.1 (Frame.Provides.assign (Instruction.provides_of_run hrun hprovides) _ _)

end Visits

end StagedArrays
