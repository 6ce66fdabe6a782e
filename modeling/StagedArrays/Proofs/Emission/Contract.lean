import Mathlib
import StagedArrays.Kernel.Interleaved
import StagedArrays.Proofs.Emission.Agreement

namespace StagedArrays

namespace Program

variable {executing recording recorded after : World AccessLog} {inputs : List Value}
  {program : Program inputs.length} {moduleName : String} {config : EmitterConfig} {function : FunctionDeclaration}
  {id : EmitterId}

/-- A program that can be executed on its inputs and recorded with parameters of
    their types can be finished, compiled with the kernels and called on the
    inputs, by its name or symbol. If there is room for all storage that the
    program asks for, the call gives the result of the execution, and leaves the
    same contents in all storage that there was. The execution asks only for
    what it reaches, and the call for all of it: if there is no room for
    something in a loop without passes, the call does not begin. -/
theorem invoke_eq_execute [ArrayLibrary]
    (hrecorded : Recorded executing recording recorded program moduleName config function id)
    {result : Option Numeric} (hexecute : (program.execute inputs).runFrom executing = (.ok result, after))
    (hstored : after.client.StoredBeforeLoaded) (table : SymbolTable) (depth : Nat) {name : String}
    (hname : name = function.name ∨ name = function.symbol moduleName) :
    ∃ module compiled, (Action.finishModule id).runFrom recorded = (.ok module, recorded) ∧
      module.compile (Kernel.register table) = .ok compiled ∧
      let called := (compiled.invoke (depth + 1) name (arguments inputs)).runFrom executing.heap
      (program.HasRoom → called.1 = .ok result ∧
        ∀ ref : HostRef, ref.index < executing.heap.buffers.size → called.2.get ref = after.heap.get ref) ∧
      (¬program.HasRoom → called.1 = .error (.fault .capacityOverflow)) := by
  obtain ⟨module, hfinish, hmodule⟩ := hrecorded.exists_module
  obtain ⟨hcompile, hinvoke⟩ := hmodule table
  obtain ⟨hagrees, hfull⟩ := hinvoke depth name hname
  refine ⟨module, _, hfinish, hcompile, fun hroom => ?_, hfull⟩
  have hagrees := hagrees hroom (by rw [hexecute]; exact hstored)
  rwa [hexecute] at hagrees

/-- A host with one buffer of two integers, and no context entered. All examples
    of this module start from it. -/
def pairHost : World AccessLog where
  heap := ⟨#[⟨.i64, #[.i64 (-1), .i64 4], by simp [Numeric.dtype]⟩]⟩
  client := []

/-- The first elements of the buffer as a vector. It may have fewer elements
    than the buffer, or as many. -/
def pairView (extent : Nat) : Value := ⟨.i64, ⟨[extent], [1]⟩, .host ⟨0⟩ 0⟩

/-- Views of one or two elements over the buffer of two are valid inputs. -/
theorem input_pairView {extent : Nat} (h : extent ∈ [1, 2]) : Input pairHost.heap (pairView extent) := by
  simp only [List.mem_cons, List.not_mem_nil, or_false] at h
  rcases h with rfl | rfl
  · exact ⟨⟨0⟩, 0, rfl, by decide, rfl, by cbv⟩
  · exact ⟨⟨0⟩, 0, rfl, by decide, rfl, by cbv⟩

theorem run_eq_of_fst {α : Type} {action : Action AccessLog α} {world : World AccessLog}
    {outcome : Except (Failure ValueError) α} (h : (action.runFrom world).1 = outcome) :
    action.runFrom world = (outcome, (action.runFrom world).2) := by
  rw [← h]

/-- Every buffer of the host is short enough for an index of machine words with
    a sign. -/
theorem signed_pairHost (ref : HostRef) (h : ref.index < pairHost.heap.buffers.size) :
    Word.Signed (pairHost.heap.get ref).length := by
  obtain ⟨index⟩ := ref
  obtain rfl : index = 0 := Nat.lt_one_iff.mp h
  rw [Word.signed_iff]
  decide

/-- Adds one to each element of a vector by way of storage taken in the loop,
    and hands back the first. -/
def increment : Program [pairView 2].length :=
  .forEach ⟨⟨[2], [1]⟩, rfl⟩
    (.allocate .i64 ⟨.scalar, rfl⟩ <| .element (.bound 0) [.bound 1] <| .store (.bound 2) (.bound 3) <|
      .binary .add (.bound 2) (.immediate (.i64 1)) <| .store (.bound 3) (.bound 4) <| .done none)
    (.element (.bound 0) [.immediate (.i64 0)] <| .done (some (.bound 1)))

/-- The declaration for the example. The function is given a view of one buffer,
    and returns an integer. -/
def incrementDeclaration : FunctionDeclaration where
  name := "increment"
  returnType := some (.scalar .i64)
  parameters := [ValueType.of (pairView 2)]

/-- The whole way of one program: it is recorded, its module is finished and
    compiled, and the call adds to the second element of the buffer that it is
    handed. -/
theorem invoke_increment :
    ∃ recorded module compiled heap,
      (increment.define "m" {} incrementDeclaration).runFrom pairHost = (.ok ⟨0⟩, recorded) ∧
      (Action.finishModule ⟨0⟩).runFrom recorded = (.ok module, recorded) ∧
      module.compile (Kernel.register .empty) = .ok compiled ∧
      (compiled.invoke 1 "increment" (arguments [pairView 2])).runFrom pairHost.heap = (.ok (some (.i64 0)), heap) ∧
      (heap.get ⟨0⟩).elements = #[.i64 0, .i64 5] := by
  have hdefine : ((increment.define "m" {} incrementDeclaration).runFrom pairHost).1 = .ok ⟨0⟩ := by
    decide +kernel
  have hexecute : ((increment.execute [pairView 2]).runFrom pairHost).1 = .ok (some (.i64 0)) := by
    decide +kernel
  have hstored : ((increment.execute [pairView 2]).runFrom pairHost).2.client.StoredBeforeLoaded := by
    decide +kernel
  have hheap : (((increment.execute [pairView 2]).runFrom pairHost).2.heap.get ⟨0⟩).elements =
      #[.i64 0, .i64 5] := by decide +kernel
  have hrecorded : @Recorded _ pairHost pairHost _ [pairView 2] increment "m" {} incrementDeclaration ⟨0⟩ :=
    ⟨by simpa using input_pairView (by decide), signed_pairHost, rfl, rfl, by decide, run_eq_of_fst hdefine⟩
  have hname : "increment" = incrementDeclaration.name ∨ "increment" = incrementDeclaration.symbol "m" := .inl rfl
  obtain ⟨module, compiled, hfinish, hcompile, hinvoke, -⟩ :=
    invoke_eq_execute hrecorded (run_eq_of_fst hexecute) hstored .empty 0 hname
  obtain ⟨hresult, hget⟩ := hinvoke ⟨⟨rfl, trivial⟩, trivial⟩
  refine ⟨_, module, compiled, _, run_eq_of_fst hdefine, hfinish, hcompile, Prod.ext hresult rfl, ?_⟩
  rw [hget ⟨0⟩ (by decide), hheap]

/-- Takes storage of 2 ^ 63 bytes, in a loop without passes. The execution never
    comes to it. -/
def unreached : Program 0 :=
  .forEach ⟨⟨[0], [1]⟩, rfl⟩ (.allocate .i32 ⟨⟨[2 ^ 61], [1]⟩, rfl⟩ <| .done none) (.done none)

def unreachedDeclaration : FunctionDeclaration where
  name := "f"
  parameters := []

/-- Its execution has nothing to do, and it is recorded if the emitter may
    declare so much; the call asks for the storage all the same. -/
theorem invoke_unreached_overflows :
    ((unreached.execute []).runFrom pairHost).1 = .ok none ∧
    ((unreached.execute []).runFrom pairHost).2.client.StoredBeforeLoaded ∧
    ∃ recorded module compiled,
      (unreached.define "m" { maxStorageBytes := 2 ^ 64 - 1 } unreachedDeclaration).runFrom pairHost = (.ok ⟨0⟩, recorded) ∧
      (Action.finishModule ⟨0⟩).runFrom recorded = (.ok module, recorded) ∧
      module.compile (Kernel.register .empty) = .ok compiled ∧
      ((compiled.invoke 1 "f" []).runFrom pairHost.heap).1 = .error (.fault .capacityOverflow) := by
  have hdefine : ((unreached.define "m" { maxStorageBytes := 2 ^ 64 - 1 } unreachedDeclaration).runFrom pairHost).1 =
      .ok ⟨0⟩ := by decide +kernel
  have hrecorded : @Recorded _ pairHost pairHost _ [] unreached "m" { maxStorageBytes := 2 ^ 64 - 1 } unreachedDeclaration ⟨0⟩ :=
    ⟨nofun, signed_pairHost, rfl, rfl, by decide, run_eq_of_fst hdefine⟩
  obtain ⟨module, hfinish, hmodule⟩ := hrecorded.exists_module
  obtain ⟨hcompile, hinvoke⟩ := hmodule .empty
  have hfull : ¬unreached.HasRoom := fun h => nomatch h.1.1
  exact ⟨by decide +kernel, by decide +kernel, _, module, _, run_eq_of_fst hdefine, hfinish, hcompile,
    (hinvoke 0 "f" (.inl rfl)).2 hfull⟩

/-- What comes of a program that is recorded as the only function of a module,
    compiled with the kernels and called on inputs. -/
def called [ArrayLibrary] (world : World AccessLog) (inputs : List Value) (program : Program inputs.length)
    (function : FunctionDeclaration) : Outcome (Option Numeric) := do
  let (outcome, recorded) := (program.define "m" {} function).runFrom world
  let module ← ((Action.finishModule (← outcome)).runFrom recorded).1
  let compiled ← module.compile (Kernel.register .empty)
  ((compiled.invoke 1 function.name (arguments inputs)).runFrom world.heap).1

/-- A successful call has gone through each stage, from the recording of the
    function to the run of its code, and none of them failed. -/
theorem called_eq_ok [ArrayLibrary] {world : World AccessLog} {inputs : List Value} {program : Program inputs.length}
    {function : FunctionDeclaration} {result : Option Numeric}
    (h : program.called world inputs function = .ok result) :
    ∃ id recorded module compiled heap, (program.define "m" {} function).runFrom world = (.ok id, recorded) ∧
      ((Action.finishModule id).runFrom recorded).1 = .ok module ∧
      module.compile (Kernel.register .empty) = .ok compiled ∧
      (compiled.invoke 1 function.name (arguments inputs)).runFrom world.heap = (.ok result, heap) := by
  obtain ⟨id, hdefine, hrest⟩ := bind_eq_ok_iff.mp h
  obtain ⟨module, hfinish, hrest⟩ := bind_eq_ok_iff.mp hrest
  obtain ⟨compiled, hcompile, hinvoke⟩ := bind_eq_ok_iff.mp hrest
  exact ⟨id, _, module, compiled, _, run_eq_of_fst hdefine, hfinish, liftM_error_eq_ok_iff.mp hcompile,
    Prod.ext hinvoke rfl⟩

/-- Where the direct execution of a program fails and a call of what was
    recorded does not, the error is one that escapes the recording: a coordinate
    that is a variable was refused, or a layout that reaches beyond the
    storage. -/
theorem escapes_of_invoke [ArrayLibrary]
    (hrecorded : Recorded executing recording recorded program moduleName config function id)
    {cause : ValueError} (hexecute : (program.execute inputs).runFrom executing = (.error (.error cause), after))
    (hstored : after.client.StoredBeforeLoaded) {module : EmittedModule}
    (hfinish : ((Action.finishModule id).runFrom recorded).1 = .ok module) {table : SymbolTable}
    {compiled : CompiledModule} (hcompile : module.compile (Kernel.register table) = .ok compiled) {depth : Nat}
    {name : String} (hname : name = function.name ∨ name = function.symbol moduleName) {result : Option Numeric}
    {heap : Heap}
    (hinvoke : (compiled.invoke (depth + 1) name (arguments inputs)).runFrom executing.heap = (.ok result, heap)) :
    program.Escapes cause := by
  obtain ⟨module', hfinish', hmodule⟩ := hrecorded.exists_module
  obtain rfl : module' = module := by
    rw [hfinish'] at hfinish
    exact Except.ok.inj hfinish
  obtain ⟨hcompile', hagrees⟩ := hmodule table
  obtain rfl : _ = compiled := Except.ok.inj (hcompile'.symm.trans hcompile)
  obtain ⟨hagrees, hfull⟩ := hagrees depth name hname
  have hroom : program.HasRoom := by
    by_contra hroom
    have hfull := hfull hroom
    rw [hinvoke] at hfull
    cases hfull
  have hagrees := hagrees hroom (by rw [hexecute]; exact hstored)
  rw [hexecute, hinvoke] at hagrees
  refine hagrees.resolve_right ?_
  rintro ⟨failure, hfailure⟩
  cases hfailure

/-- A function of inputs without a result. -/
def procedure (inputs : List Value) : FunctionDeclaration where
  name := "f"
  parameters := inputs.map ValueType.of

/-- Direct execution reports an error, and yet a call of what was recorded
    completes. -/
def Diverges [ArrayLibrary] (world : World AccessLog) (inputs : List Value) (program : Program inputs.length) : Prop :=
  (∃ cause, ((program.execute inputs).runFrom world).1 = .error (.error cause)) ∧
    ∃ result, program.called world inputs (procedure inputs) = .ok result

/-- Clears more elements than a vector has. The loop goes on where the vector
    ends. -/
def clearBeyond : Program [pairView 1].length :=
  .forEach ⟨⟨[2], [1]⟩, rfl⟩
    (.element (.bound 0) [.bound 1] <| .store (.bound 2) (.immediate (.i64 0)) <| .done none)
    (.done none)

theorem execute_clearBeyond : ((clearBeyond.execute [pairView 1]).runFrom pairHost).1 =
    .error (.error (.layout (.indexOutOfBounds 0 1 1))) := by decide +kernel

theorem called_clearBeyond : clearBeyond.called pairHost [pairView 1] (procedure [pairView 1]) = .ok none := by cbv

/-- A loop over two elements clears a vector of one. Directly this is an index
    out of bounds. The emitted call compares no variable coordinate with its
    extent and writes into the element behind the view. -/
theorem escapes_clearBeyond : clearBeyond.Diverges pairHost [pairView 1] ∧
    clearBeyond.Escapes (.layout (.indexOutOfBounds 0 1 1)) := by
  have hstored : ((clearBeyond.execute [pairView 1]).runFrom pairHost).2.client.StoredBeforeLoaded := by
    decide +kernel
  obtain ⟨id, recorded, module, compiled, heap, hdefine, hfinish, hcompile, hinvoke⟩ :=
    called_eq_ok called_clearBeyond
  have hrecorded : @Recorded _ pairHost pairHost recorded [pairView 1] clearBeyond "m" {} (procedure [pairView 1]) id :=
    ⟨by simpa using input_pairView (by decide), signed_pairHost, rfl, rfl, by decide, hdefine⟩
  refine ⟨⟨⟨_, execute_clearBeyond⟩, none, called_clearBeyond⟩, ?_⟩
  exact escapes_of_invoke hrecorded (run_eq_of_fst execute_clearBeyond) hstored hfinish hcompile (.inl rfl) hinvoke

/-- Reaches an element by a coordinate below zero, which is the contents of
    another. -/
def stepBack : Program [pairView 2].length :=
  .view (.bound 0) ⟨⟨[2, 1], [1, 1]⟩, rfl⟩ <| .element (.bound 0) [.immediate (.i64 0)] <| .load (.bound 2) <|
    .element (.bound 1) [.immediate (.i64 1), .bound 3] <| .store (.bound 4) (.immediate (.i64 0)) <| .done none

theorem stepBack_diverges : stepBack.Diverges pairHost [pairView 2] :=
  ⟨⟨.invalidArgument (.notAnIndex (.i64 (-1))), by decide +kernel⟩, none, by cbv⟩

/-- Lays three elements over the storage of two. Directly this is refused when
    the view is made. -/
def widen : Program [pairView 2].length := .view (.bound 0) ⟨⟨[3], [1]⟩, rfl⟩ <| .done none

theorem widen_diverges : widen.Diverges pairHost [pairView 2] :=
  ⟨⟨.sizeMismatch 2 3, by decide +kernel⟩, none, by cbv⟩

/-- Reads storage taken in a loop before it writes there. In a second pass the
    call finds what the first has left. -/
def divideByStale : Program 0 :=
  .forEach ⟨⟨[2], [1]⟩, rfl⟩
    (.allocate .i64 ⟨.scalar, rfl⟩ <| .binary .sub (.immediate (.i64 1)) (.bound 0) <|
      .binary .add (.bound 1) (.bound 2) <| .binary .div (.immediate (.i64 1)) (.bound 3) <|
        .store (.bound 1) (.immediate (.i64 5)) <| .done none)
    (.done none)

theorem divideByStale_diverges : Diverges pairHost [] divideByStale :=
  ⟨⟨.divisionByZero, by decide +kernel⟩, none, by cbv⟩

/-- Errors of direct execution that a call does not share: a coordinate beyond
    its extent or below zero, a layout beyond the storage, and whatever comes of
    storage that a loop body reads first. -/
theorem call_outlives_execution : clearBeyond.Diverges pairHost [pairView 1] ∧
    stepBack.Diverges pairHost [pairView 2] ∧ widen.Diverges pairHost [pairView 2] ∧
    Diverges pairHost [] divideByStale :=
  ⟨⟨⟨_, execute_clearBeyond⟩, none, called_clearBeyond⟩, stepBack_diverges, widen_diverges, divideByStale_diverges⟩

end Program

end StagedArrays
