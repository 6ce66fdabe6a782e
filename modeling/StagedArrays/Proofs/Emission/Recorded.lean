import StagedArrays.Proofs.Emission.Entry

namespace StagedArrays

namespace Program

/-- Records a program as the only function of a new module. The emitter is set
    up for it. -/
def define [ArrayLibrary] {n : Nat} (program : Program n) (moduleName : String) (config : EmitterConfig)
    (function : FunctionDeclaration) : Action AccessLog EmitterId := do
  let id ← Action.newEmitter moduleName config
  Action.defineFunction id function program.body
  return id

end Program

namespace FunctionBuilder

/-- The function that a builder with a piece recorded at its end is finished
    as. -/
def finished (builder : FunctionBuilder) (f : Fragment) (result : Option Operand) : EmittedFunction where
  name := builder.name
  symbol := builder.symbol
  parameters := builder.parameters
  bindings := builder.bindings.toList
  returnType := builder.returnType
  buffers := (builder.extend f).buffers.toList
  body := f.code
  result := result

/-- A function with no open loops can be finished. Its body is what has been
    recorded. -/
theorem finish_extend {builder : FunctionBuilder} (hblocks : builder.blocks = [#[]]) (f : Fragment)
    (result : Option Operand) : (builder.extend f).finish result = .ok (builder.finished f result) := by
  have hextend : (builder.extend f).blocks = [f.code.toArray] := by simp [extend, hblocks]
  rw [finish, hextend]
  rfl

/-- Two recordings that lead to the same module have recorded the same
    instructions and declarations. -/
theorem eq_of_finished_eq {builder : FunctionBuilder} {f g : Fragment} {operand operand' : Option Operand} {name : String}
    (h : (⟨name, [builder.finished f operand]⟩ : EmittedModule) = ⟨name, [builder.finished g operand']⟩) :
    f.code = g.code ∧ f.buffers = g.buffers := by
  have hfunctions := List.singleton_injective (EmittedModule.mk.inj h).2
  exact ⟨congrArg EmittedFunction.body hfunctions, by
    simpa [finished] using congrArg EmittedFunction.buffers hfunctions⟩

end FunctionBuilder

/-- A module whose functions leave the symbols of the kernels alone. Calls of
    these then reach the table. -/
def EmittedModule.Spares (module : EmittedModule) : Prop :=
  ∀ symbol ∈ Kernel.symbols, module.bySymbol? symbol = none

theorem EmittedModule.spares_empty (name : String) : (⟨name, []⟩ : EmittedModule).Spares := fun _ _ => rfl

namespace Kernel

/-- The kernel for single precision is found in a table that the kernels are
    registered in. Nothing later hides it. -/
theorem get?_register_single [ArrayLibrary] (table : SymbolTable) : (register table).get? singleDotSymbol = some singleDot := by
  have hne : ¬(doubleDotSymbol == singleDotSymbol) = true := by decide
  simp only [register, SymbolTable.get?, SymbolTable.insert]
  rw [Std.HashMap.getElem?_insert, if_neg hne, Std.HashMap.getElem?_insert_self]

theorem get?_register_double [ArrayLibrary] (table : SymbolTable) : (register table).get? doubleDotSymbol = some doubleDot := by
  simp only [register, SymbolTable.get?, SymbolTable.insert]
  rw [Std.HashMap.getElem?_insert_self]

/-- Registration makes each kernel known under its symbol, whatever the table
    held before. -/
theorem contains_register [ArrayLibrary] {symbol : String} (h : symbol ∈ symbols) (table : SymbolTable) :
    (register table).contains symbol = true := by
  simp only [symbols, List.mem_cons, List.not_mem_nil, or_false] at h
  rcases h with rfl | rfl
  · rw [SymbolTable.contains, get?_register_single]
    rfl
  · rw [SymbolTable.contains, get?_register_double]
    rfl

end Kernel

/-- Calls of the kernels' symbols go to the kernels, at whatever depth. -/
theorem CompiledModule.call_kernel [ArrayLibrary] {module : EmittedModule} (h : module.Spares) (table : SymbolTable) (depth : Nat) :
    (⟨module, Kernel.register table⟩ : CompiledModule).call (depth + 1) Kernel.singleDotSymbol = Kernel.singleDot ∧
      (⟨module, Kernel.register table⟩ : CompiledModule).call (depth + 1) Kernel.doubleDotSymbol =
        Kernel.doubleDot := by
  refine ⟨funext fun args => ?_, funext fun args => ?_⟩
  · simp only [call, h Kernel.singleDotSymbol (by simp [Kernel.symbols]), Kernel.get?_register_single]
  · simp only [call, h Kernel.doubleDotSymbol (by simp [Kernel.symbols]), Kernel.get?_register_double]

namespace Comparison

/-- The comparison of a program that is executed in one world and recorded in
    another, as the only function of a new module. Its calls and storage are
    those of a finished module. -/
def ofModule [ArrayLibrary] (executing recording : World AccessLog) (moduleName : String) (config : EmitterConfig)
    {module : EmittedModule} (hspares : module.Spares) (table : SymbolTable) (depth : Nat) : Comparison where
  id := ⟨recording.emitters.size⟩
  emitter := { moduleName, config, scope := 1 }
  recording := { recording with
    emitters := recording.emitters.push { moduleName, config }
    contexts := .emitter ⟨recording.emitters.size⟩ :: recording.contexts }
  executing := { executing with contexts := .compute :: executing.contexts }
  call := (⟨module, Kernel.register table⟩ : CompiledModule).call (depth + 1)
  declarations := module.functions.flatMap EmittedFunction.buffers
  originals := executing.heap.buffers.size
  inRange := by simp
  recordingActive := rfl
  executingActive := rfl
  callSingle := (CompiledModule.call_kernel hspares table depth).1
  callDouble := (CompiledModule.call_kernel hspares table depth).2

variable {executing recording recorded : World AccessLog} {moduleName : String} {config : EmitterConfig}
  {function : FunctionDeclaration} {id : EmitterId} {n : Nat} {program : Program n}

/-- A new emitter starts a function if its parameters can be bound. It is the
    first of the emitter. -/
theorem runFrom_startFunction {values : List Value} {builder : FunctionBuilder}
    (hstart : FunctionBuilder.start function moduleName = .ok (values, builder)) :
    (Emitter.startFunction function).runFrom { moduleName, config } =
      (.ok values, { moduleName, config, current := some builder, scope := 1 }) := by
  simp [Emitter.startFunction, Stateful.runFrom_bind, hstart]

/-- A function that succeeds to start has parameters that can be bound. The
    sizes of their layouts do not overflow. -/
theorem exists_start {values : List Value} {emitter : Emitter}
    (h : (Emitter.startFunction function).runFrom { moduleName, config } = (.ok values, emitter)) :
    ∃ builder, FunctionBuilder.start function moduleName = .ok (values, builder) := by
  cases hstart : FunctionBuilder.start function moduleName with
  | error failure => simp [Emitter.startFunction, Stateful.runFrom_bind, hstart] at h
  | ok started =>
    obtain ⟨found, builder⟩ := started
    rw [runFrom_startFunction hstart] at h
    cases h
    exact ⟨builder, rfl⟩

/-- It ends the function with what has been recorded. The emitter has no
    function in progress afterwards. -/
theorem runFrom_endFunction {builder : FunctionBuilder} (hblocks : builder.blocks = [#[]]) (f : Fragment)
    (operand : Option Operand) :
    (Emitter.endFunction (.ok operand)).runFrom
        { moduleName, config, current := some (builder.extend f), scope := 1 } =
      (.ok (), { moduleName, config, functions := #[builder.finished f operand], scope := 1 }) := by
  simp [Emitter.endFunction, Emitter.builder, Stateful.settle, Stateful.runFrom_bind,
    FunctionBuilder.finish_extend hblocks]

variable (executing) in
/-- A definition that succeeds leaves a module with one function: the piece that
    the program records after its parameters. -/
theorem exists_recorded [ArrayLibrary] (hdefine : (program.define moduleName config function).runFrom recording = (.ok id, recorded)) :
    ∃ values builder, FunctionBuilder.start function moduleName = .ok (values, builder) ∧
      (builder.blocks = [#[]] → ∀ {module : EmittedModule} (hspares : module.Spares) (table : SymbolTable)
        (depth : Nat) (post : Option Operand → Fragment → Prop),
        (ofModule executing recording moduleName config hspares table depth).Records builder (do
          let result ← program.body values
          .onEmitter ⟨recording.emitters.size⟩ (Emitter.resultOperand function result)) post →
        ∃ operand f, f.Placed builder.buffers.size ∧ post operand f ∧ (Action.finishModule id).runFrom recorded =
          (.ok ⟨moduleName, [builder.finished f operand]⟩, recorded)) := by
  obtain ⟨_, added, hnew, hrest⟩ := Stateful.runFrom_bind_eq_ok.mp hdefine
  cases hnew
  obtain ⟨_, after, hdefine, hrest⟩ := Stateful.runFrom_bind_eq_ok.mp hrest
  cases hrest
  obtain ⟨values, started, operand, ended, hstarted, hrun, hend⟩ := Action.exists_of_defineFunction hdefine
  have hnew : (recording.emitters.push { moduleName, config })[recording.emitters.size]?.getD default =
      { moduleName, config } := by simp
  rw [Action.runFrom_onEmitter] at hstarted
  simp only [hnew, Prod.mk.injEq] at hstarted
  obtain ⟨builder, hstart⟩ := exists_start (Prod.ext hstarted.1 rfl)
  rw [runFrom_startFunction hstart] at hstarted
  obtain ⟨-, rfl⟩ := hstarted
  refine ⟨values, builder, hstart, fun hblocks module hspares table depth post hbody => ?_⟩
  obtain ⟨f, log, rfl, hplaced, hpost⟩ := hbody recording.client operand ended hrun
  refine ⟨operand, f, hplaced, hpost, ?_⟩
  have hget : (ofModule executing recording moduleName config hspares table depth).recordingAt
      (builder.extend f) log |>.emitters[recording.emitters.size]?.getD default =
        { moduleName, config, current := some (builder.extend f), scope := 1 } :=
    getD_emitters_recordingAt _ _
  rw [Action.runFrom_onEmitter] at hend
  simp only [hget, runFrom_endFunction hblocks] at hend
  cases hend
  simp [Action.finishModule, Emitter.finish, recordingAt, ofModule, Stateful.runFrom_bind]

end Comparison

end StagedArrays
