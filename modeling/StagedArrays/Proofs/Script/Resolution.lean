import StagedArrays.Kernel.Interleaved
import StagedArrays.Proofs.Script.Entry

namespace StagedArrays

namespace HostArgument

theorem resolved_asBuffer (arg : HostArgument) :
    Outcome.Resolved (liftM arg.asBuffer : Outcome (HostRef × Nat)) := by
  cases arg with
  | scalar x => exact Outcome.resolved_error id
  | buffer ref offset => exact Outcome.resolved_ok _

/-- An argument that is no count is an error about the argument. -/
theorem resolved_asCount (arg : HostArgument) : Outcome.Resolved (liftM arg.asCount : Outcome Int) := by
  refine Outcome.resolved_liftError fun cause h => ?_
  cases arg with
  | buffer ref offset => cases h; exact id
  | scalar x => cases x <;> cases h <;> exact id

/-- Reading storage that was handed over misses neither registers nor
    buffers. -/
theorem resolved_elementsFrom (dtype : DType) (ref : HostRef) (offset : Nat) (heap : Heap) :
    Outcome.Resolved ((elementsFrom dtype ref offset).runFrom heap).1 := by
  refine Outcome.resolved_bind (Outcome.resolved_ok _) fun buffer _ _ => ?_
  refine Outcome.resolved_bind ?_ fun elements _ _ => ?_
  · refine Outcome.resolved_liftError fun cause h => ?_
    unfold HostBuffer.elementsOf at h
    split at h
    · cases h
    · cases h; exact id
  · split
    · exact Outcome.resolved_error id
    · exact Outcome.resolved_ok _

end HostArgument

namespace DotArithmetic

variable {α : Type} (arithmetic : DotArithmetic α)

/-- A view that is refused is refused for its count, its increment or its
    slice. -/
theorem not_dangling_of_view [ArrayLibrary] {count increment : Int} {data : Array α} {cause : ValueError}
    (h : arithmetic.view count increment data = .error cause) : ¬cause.Dangling := by
  unfold view at h
  split at h
  · cases h; exact id
  · split at h
    · cases h; exact id
    · split at h
      · cases h; exact id
      · cases h

/-- An inner product on slices is computed or one of its views is refused.
    Neither is about a register or a buffer. -/
theorem resolved_dot [ArrayLibrary] (count : Int) (xs : Array α) (xIncrement : Int) (ys : Array α) (yIncrement : Int) :
    Outcome.Resolved (liftM (arithmetic.dot count xs xIncrement ys yIncrement) : Outcome α) := by
  refine Outcome.resolved_liftError fun cause h => ?_
  unfold dot at h
  cases hx : arithmetic.view count xIncrement xs with
  | error found =>
    rw [hx] at h
    cases h
    exact arithmetic.not_dangling_of_view hx
  | ok x =>
    rw [hx, ok_bind] at h
    cases hy : arithmetic.view count yIncrement ys with
    | error found =>
      rw [hy] at h
      cases h
      exact arithmetic.not_dangling_of_view hy
    | ok y =>
      rw [hy, ok_bind] at h
      cases h

end DotArithmetic

/-- The kernel for inner products never reports a missing register or buffer. -/
theorem resolves_vendorDot [ArrayLibrary] {α : Type} (arithmetic : DotArithmetic α) (dtype : DType) (read : Numeric → α)
    (write : α → Numeric) : HostFunction.Resolves (vendorDot arithmetic dtype read write) := by
  intro args heap
  unfold vendorDot
  split
  · refine Outcome.resolved_bind (HostArgument.resolved_asBuffer _) fun _ _ _ => ?_
    refine Outcome.resolved_bind (HostArgument.resolved_asBuffer _) fun _ _ _ => ?_
    refine Outcome.resolved_bind (HostArgument.resolved_elementsFrom _ _ _ _) fun _ _ _ => ?_
    refine Outcome.resolved_bind (HostArgument.resolved_elementsFrom _ _ _ _) fun _ _ _ => ?_
    refine Outcome.resolved_bind (HostArgument.resolved_asCount _) fun _ _ _ => ?_
    refine Outcome.resolved_bind (HostArgument.resolved_asCount _) fun _ _ _ => ?_
    refine Outcome.resolved_bind (HostArgument.resolved_asCount _) fun _ _ _ => ?_
    exact Outcome.resolved_bind (DotArithmetic.resolved_dot arithmetic _ _ _ _ _) fun _ _ _ => Outcome.resolved_ok _
  · exact Outcome.resolved_error id

/-- Neither does any function of a table that the kernels are added to. -/
theorem Kernel.resolves_register [ArrayLibrary] {table : SymbolTable}
    (h : ∀ symbol function, table.get? symbol = some function → HostFunction.Resolves function) :
    ∀ symbol function, (register table).get? symbol = some function → HostFunction.Resolves function := by
  intro symbol function hget
  simp only [register, SymbolTable.get?, SymbolTable.insert, Std.HashMap.getElem?_insert] at hget
  split at hget
  · cases hget
    exact resolves_vendorDot _ _ _ _
  · split at hget
    · cases hget
      exact resolves_vendorDot _ _ _ _
    · exact h symbol function hget

/-- A frame that has in store what an instruction reads. Closed code is executed
    in such frames only. -/
def Frame.Serves (frame : Frame) (instruction : Instruction) : Prop :=
  ∃ declared assigned, instruction.Closed declared assigned ∧ frame.Provides declared assigned

/-- A frame in which the buffer of a parameter is the storage that is handed
    over for it, and any other buffer is storage that was not in use before. -/
structure Frame.Confined (heap : Heap) (parameters : List Value) (args : List HostArgument) (frame : Frame) : Prop where
  handed : List.Forall₂ (fun parameter arg => ∀ id ∈ parameter.buffers, ∃ ref offset,
    arg = .buffer ref offset ∧ frame.buffers[id]? = some (ref, offset)) parameters args
  fresh : ∀ id ∉ parameters.flatMap Value.buffers, ∀ (ref : HostRef) (offset : Nat),
    frame.buffers[id]? = some (ref, offset) → heap.buffers.size ≤ ref.index

namespace Emitter

variable {emitter : Emitter} {function : EmittedFunction} {transcript : Transcript} {heap after : Heap}
  {args : List HostArgument} {entered : Frame} {call : String → HostFunction}

/-- A function has a hold of the storage that it is handed, and of storage of
    its own. -/
theorem Recorded.confined_of_enter (h : emitter.Recorded function transcript)
    (henter : (function.enter args).runFrom heap = (.ok entered, after)) :
    entered.Confined heap transcript.parameters args := by
  refine ⟨(h.forall₂_takes henter).imp fun parameter arg htakes => ?_, ?_⟩
  · intro id hmem
    exact htakes.exists_of_mem_buffers hmem
  · obtain ⟨hstart, -, -, -, -⟩ := h
    next declared parameters builder events f g result operand =>
    obtain ⟨hlength, bound, hbind, hlocals⟩ := EmittedFunction.exists_of_enter henter
    obtain ⟨first, hreceives⟩ := FunctionBuilder.exists_receives_start hstart hlength hbind
    intro id hid ref offset hget
    rcases (Frame.furnished_of_bindLocals hlocals).origin id ref offset hget with hbound | hge
    · rcases hreceives.origin id ref offset hbound with hempty | ⟨hmem, -⟩
      · simp at hempty
      · exact (hid hmem).elim
    · exact hge

/-- Wherever a closed function comes to, its frame has in store what is read
    there, and has a hold of nothing else. -/
theorem Recorded.of_visits (h : emitter.Recorded function transcript) (hclosed : function.Closed)
    (henter : (function.enter args).runFrom heap = (.ok entered, after)) {instruction : Instruction} {found : Running}
    (hvisits : Visits call function.body ⟨entered, after⟩ instruction found) :
    found.frame.Serves instruction ∧ found.frame.Confined heap transcript.parameters args := by
  obtain ⟨assigned, hinstruction, hprovides⟩ := hvisits.exists_provides hclosed.1 (h.provides_of_enter henter)
  obtain ⟨hhanded, hfresh⟩ := h.confined_of_enter henter
  have hbuffers := hvisits.running_extends.buffers_eq
  refine ⟨⟨_, assigned, hinstruction, hprovides⟩, ?_, ?_⟩
  · rwa [hbuffers]
  · rwa [hbuffers]

end Emitter

namespace Script

/-- A function whose body uses only what it has been handed out itself is
    closed. Each instruction touches only buffers of the values that it was
    recorded for. Wherever a call comes to, what is read there has been
    assigned, the buffer of a parameter is what has been handed over for it, and
    all other buffers are new storage. No call fails for want of a register or a
    buffer, unless a function that it calls does; in a module of such functions
    only one of the host can. -/
theorem closed_of_scoped {α : Type} (script : Script α) (heap : Heap) (id : EmitterId) (module : EmittedModule)
    (final : World Journal)
    (hfinish : (Action.finishModule id).runFrom (script.run.runFrom (.outset heap)).2 = (.ok module, final)) :
    List.Forall₂ (fun function transcript => transcript.Scoped →
        function.Closed ∧
        (blockSteps function.body = transcript.emitted ∧ ∀ event ∈ transcript.events, ∀ instruction ∈ event.code,
          instruction.buffers ⊆ event.values.flatMap Value.buffers) ∧
        (∀ call args heap entered after, (function.enter args).runFrom heap = (.ok entered, after) →
          ∀ instruction found, Visits call function.body ⟨entered, after⟩ instruction found →
            found.frame.Serves instruction ∧ found.frame.Confined heap transcript.parameters args) ∧
        ∀ call, (∀ symbol ∈ function.referencedSymbols, HostFunction.Resolves (call symbol)) →
          HostFunction.Resolves (function.invoke call))
      module.functions ((script.run.runFrom (.outset heap)).2.client id).recorded ∧
    ((∀ transcript ∈ ((script.run.runFrom (.outset heap)).2.client id).recorded, transcript.Scoped) →
      ∀ table compiled, module.compile table = .ok compiled →
        (∀ symbol function, table.get? symbol = some function → HostFunction.Resolves function) →
          ∀ depth name, HostFunction.Resolves (compiled.invoke depth name)) := by
  have hdocumented := World.documented_run script heap id
  rw [Action.functions_of_finishModule hfinish]
  refine ⟨hdocumented.imp ?_, fun hscoped table compiled hcompile htable depth name => ?_⟩
  · rintro function transcript ⟨origin, -, h⟩ hscoped
    have hclosed := h.closed hscoped
    refine ⟨hclosed, ⟨h.blockSteps_eq, fun event hevent instruction => h.buffers_subset hevent⟩, ?_, ?_⟩
    · exact fun call args heap entered after henter instruction found hvisits => h.of_visits hclosed henter hvisits
    · exact fun call => h.resolves_invoke hclosed
  · obtain ⟨hprogram, hsymbols⟩ := EmittedModule.program_eq_of_compile hcompile
    refine CompiledModule.resolves_invoke (fun function hfunction call => ?_) (by rwa [hsymbols]) depth name
    rw [hprogram, Action.functions_of_finishModule hfinish] at hfunction
    obtain ⟨transcript, hmem, origin, -, h⟩ := exists_of_forall₂_of_mem hdocumented hfunction
    exact h.resolves_invoke (h.closed (hscoped transcript hmem))

/-- A procedure of a given name on two integers. -/
def pairDeclaration (name : String) : FunctionDeclaration where
  name := name
  parameters := [.pointer .i32 ⟨[2], [1]⟩]

/-- Goes on with what an operation has handed out. If it has failed, the program
    ends with its error. -/
def withValue (next : Value → Script (Option Value)) : Except ValueError (Option Value) → Script (Option Value)
  | .ok (some value) => next value
  | outcome => done outcome

/-- Stores a value to the first element of a pair. -/
def storeFirst (pair value : Value) : Script (Option Value) :=
  perform (.emitter ⟨0⟩) (.element pair [Scalar.ofIndex 0]) <| withValue fun first =>
    perform (.emitter ⟨0⟩) (.store first value) done

/-- Keeps the first element of a pair, and stores it to each. It is kept in
    storage of the function's own. -/
def spread (pair : Value) : Script (Option Value) :=
  perform (.emitter ⟨0⟩) (.element pair [Scalar.ofIndex 0]) <| withValue fun first =>
  perform (.emitter ⟨0⟩) (.load first) <| withValue fun x =>
  perform (.emitter ⟨0⟩) (.allocate .i32 .scalar) <| withValue fun storage =>
  perform (.emitter ⟨0⟩) (.store storage x) fun _ =>
  forEach (.emitter ⟨0⟩) ⟨[2], [1]⟩
    (fun coordinates => perform (.emitter ⟨0⟩) (.element pair coordinates) fun
      | .ok (some element) => perform (.emitter ⟨0⟩) (.store element storage) fun _ => done (.ok ())
      | _ => done (.ok ()))
    fun _ => done (.ok none)

/-- Loads an element of a pair in a loop that is never executed. The register is
    nevertheless used after the loop. -/
def loadNever (pair : Value) (next : Script (Option Value)) : Script (Option Value) :=
  forEach (.emitter ⟨0⟩) ⟨[0], [1]⟩
    (fun _ => perform (.emitter ⟨0⟩) (.element pair [Scalar.ofIndex 0]) fun
      | .ok (some element) => perform (.emitter ⟨0⟩) (.load element) fun _ => done (.ok ())
      | _ => done (.ok ()))
    fun _ => next

/-- Defines a function whose body uses only what it has been handed out itself,
    and others that use a register or a buffer of that function, or a register
    of a loop that has been closed. -/
def leaking : Script Unit :=
  newEmitter "m" {} fun id =>
    define id (pairDeclaration "spread") (fun args => spread (args.headD (.constant (.i32 0)))) fun _ =>
    define id (pairDeclaration "register") (fun args => storeFirst (args.headD (.constant (.i32 0))) (.register .i32 ⟨0⟩)) fun _ =>
    define id (pairDeclaration "buffer")
      (fun args => storeFirst (args.headD (.constant (.i32 0))) (.emittedBuffer .i32 .scalar ⟨1⟩)) fun _ =>
    define id (pairDeclaration "loop")
      (fun args => loadNever (args.headD (.constant (.i32 0))) <|
        storeFirst (args.headD (.constant (.i32 0))) (.register .i32 ⟨1⟩)) done

/-- The world in which these functions are defined. -/
@[irreducible]
def leaked : World Journal := (leaking.run.runFrom (.outset ⟨#[]⟩)).2

/-- A function on two integers as it is recorded. -/
def pairFunction (name symbol : String) (locals : List BufferDeclaration) (body : List Instruction) : EmittedFunction where
  name := name
  symbol := symbol
  parameters := (pairDeclaration name).parameters
  bindings := [.buffer ⟨0⟩]
  returnType := none
  buffers := ⟨⟨0⟩, .i32, 2, .parameter 0⟩ :: locals
  body := body
  result := none

/-- The first of these functions. -/
def spreadFunction : EmittedFunction :=
  pairFunction "spread" "m_spread" [⟨⟨1⟩, .i32, 1, .own⟩] [
    .load ⟨0⟩ ⟨0⟩ (.constant (.i64 0)),
    .store ⟨1⟩ (.constant (.i64 0)) (.register ⟨0⟩),
    .loop ⟨1⟩ 2 [
      .binary ⟨2⟩ .mul (.register ⟨1⟩) (.constant (.i64 1)),
      .binary ⟨3⟩ .add (.constant (.i64 0)) (.register ⟨2⟩),
      .load ⟨4⟩ ⟨1⟩ (.constant (.i64 0)),
      .store ⟨0⟩ (.register ⟨3⟩) (.register ⟨4⟩)]]

/-- The module of all four. -/
def leakedModule : EmittedModule where
  name := "m"
  functions := [
    spreadFunction,
    pairFunction "register" "m_register" [] [.store ⟨0⟩ (.constant (.i64 0)) (.register ⟨0⟩)],
    pairFunction "buffer" "m_buffer" [] [
      .load ⟨0⟩ ⟨1⟩ (.constant (.i64 0)),
      .store ⟨0⟩ (.constant (.i64 0)) (.register ⟨0⟩)],
    pairFunction "loop" "m_loop" [] [
      .loop ⟨0⟩ 0 [.load ⟨1⟩ ⟨0⟩ (.constant (.i64 0))],
      .store ⟨0⟩ (.constant (.i64 0)) (.register ⟨1⟩)]]

/-- What a call of one of them on two zeros comes to. -/
def invokeLeaked (name : String) : Outcome (Option Numeric) :=
  (((⟨leakedModule, .empty⟩ : CompiledModule).invoke 1 name [.buffer ⟨0⟩ 0]).runFrom ⟨#[.zeros .i32 2]⟩).1

/-- All four are recorded. The call of a function that uses what was handed out
    in another one, or in a loop that is not executed, finds a register
    unassigned, or a buffer unbound. -/
theorem leaked_dangling :
    ((Action.finishModule ⟨0⟩).runFrom leaked).1 = .ok leakedModule ∧
      invokeLeaked "register" = .error (.error (.invalidArgument (.unassignedRegister 0))) ∧
      invokeLeaked "buffer" = .error (.error (.invalidArgument (.unboundBuffer 1))) ∧
      invokeLeaked "loop" = .error (.error (.invalidArgument (.unassignedRegister 1))) := by
  refine ⟨?_, ?_, ?_, ?_⟩
  · decide +kernel
  · cbv
  · cbv
  · cbv

/-- Defines only the first function. -/
def spreading : Script Unit :=
  newEmitter "m" {} fun id =>
    define id (pairDeclaration "spread") (fun args => spread (args.headD (.constant (.i32 0)))) done

/-- The world in which it is defined. -/
@[irreducible]
def spreadWorld : World Journal := (spreading.run.runFrom (.outset ⟨#[]⟩)).2

/-- A function that spreads one scalar over a vector: its code is closed, and no
    call of the compiled module reports something missing. -/
theorem closed_of_scoped_spreading : ∃ final compiled,
    (Action.finishModule ⟨0⟩).runFrom spreadWorld = (.ok ⟨"m", [spreadFunction]⟩, final) ∧ spreadFunction.Closed ∧
      (⟨"m", [spreadFunction]⟩ : EmittedModule).compile (Kernel.register .empty) = .ok compiled ∧
      ∀ depth name, HostFunction.Resolves (compiled.invoke depth name) := by
  have hmodule : ((Action.finishModule ⟨0⟩).runFrom spreadWorld).1 = .ok ⟨"m", [spreadFunction]⟩ := by decide +kernel
  have hscoped : ∀ transcript ∈ (spreadWorld.client ⟨0⟩).recorded, transcript.Scoped := by decide +kernel
  have hcompile : (⟨"m", [spreadFunction]⟩ : EmittedModule).compile (Kernel.register .empty) =
      .ok ⟨⟨"m", [spreadFunction]⟩, Kernel.register .empty⟩ := by cbv
  have hfinish : (Action.finishModule ⟨0⟩).runFrom spreadWorld = (.ok ⟨"m", [spreadFunction]⟩, _) :=
    Prod.ext_iff.mpr ⟨hmodule, rfl⟩
  have hspread := hfinish
  rw [spreadWorld] at hspread hscoped
  obtain ⟨hfunctions, hresolves⟩ := closed_of_scoped spreading ⟨#[]⟩ ⟨0⟩ _ _ hspread
  refine ⟨_, _, hfinish, ?_, hcompile, hresolves hscoped _ _ hcompile (Kernel.resolves_register ?_)⟩
  · obtain ⟨transcript, hmem, hclosed⟩ := exists_of_forall₂_of_mem hfunctions List.mem_cons_self
    exact (hclosed (hscoped transcript hmem)).1
  · intro symbol function hget
    simp [SymbolTable.get?, SymbolTable.empty] at hget

end Script

end StagedArrays
