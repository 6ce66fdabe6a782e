import StagedArrays.Proofs.Emission.Invocation

namespace StagedArrays

namespace HostBuffer

/-- Two buffers of one element type are equal if they read the same at every
    index. The index past the end settles the length. -/
theorem ext_get? {x y : HostBuffer} (hdtype : x.dtype = y.dtype) (h : ∀ index, x.get? index = y.get? index) :
    x = y := by
  obtain ⟨dtype, elements, _⟩ := x
  obtain ⟨dtype', elements', _⟩ := y
  obtain rfl : dtype = dtype' := hdtype
  obtain rfl : elements = elements' := Array.ext_getElem? h
  rfl

end HostBuffer

namespace Program

/-- A program over inputs on the host, recorded as the only function of a new
    module. No buffer of the host is longer than a signed word can count, and
    the function is not declared under the symbol of a kernel. -/
structure Recorded [ArrayLibrary] (executing recording recorded : World AccessLog) {inputs : List Value}
    (program : Program inputs.length) (moduleName : String) (config : EmitterConfig)
    (function : FunctionDeclaration) (id : EmitterId) : Prop where
  input : ∀ value ∈ inputs, Input executing.heap value
  signed : ∀ ref : HostRef, ref.index < executing.heap.buffers.size →
    Word.Signed (executing.heap.get ref).length
  client_eq : executing.client = []
  parameters_eq : function.parameters = inputs.map ValueType.of
  symbol_notMem : function.symbol moduleName ∉ Kernel.symbols
  define_eq : (program.define moduleName config function).runFrom recording = (.ok id, recorded)

end Program

namespace EmittedModule

variable {name : String} {function : EmittedFunction}

/-- A module with one function leaves every kernel its symbol if the symbol of
    the function is none of the kernels'. -/
theorem spares_singleton (h : function.symbol ∉ Kernel.symbols) : (⟨name, [function]⟩ : EmittedModule).Spares := by
  intro symbol hmem
  rw [bySymbol?, List.find?_cons_of_neg, List.find?_nil]
  rw [beq_iff_eq]
  rintro rfl
  exact h hmem

/-- The one function of a module is found under its name and under its
    symbol. -/
theorem lookup?_singleton {found : String} (h : found = function.name ∨ found = function.symbol) :
    (⟨name, [function]⟩ : EmittedModule).lookup? found = some function := by
  unfold lookup? bySymbol?
  by_cases hsymbol : function.symbol = found
  · simp [hsymbol]
  · have hname : function.name = found := (h.resolve_right (Ne.symm hsymbol)).symm
    simp [hsymbol, hname]

/-- A module whose calls go to the kernels can be compiled, because the kernels
    are in the table. -/
theorem compile_eq_ok [ArrayLibrary] {module : EmittedModule}
    (h : ∀ function ∈ module.functions, ∀ symbol ∈ blockSymbols function.body, symbol ∈ Kernel.symbols)
    (table : SymbolTable) : module.compile (Kernel.register table) = .ok ⟨module, Kernel.register table⟩ := by
  have hnone : module.unresolved? (Kernel.register table)
      (module.functions.flatMap EmittedFunction.referencedSymbols) = none := by
    refine List.find?_eq_none.mpr fun symbol hmem => ?_
    obtain ⟨function, hfunction, hsymbol⟩ := List.mem_flatMap.mp hmem
    have hkernel := h function hfunction symbol (List.mem_eraseDups.mp hsymbol)
    simp [Kernel.contains_register hkernel]
  rw [compile, hnone]

end EmittedModule

namespace Comparison

variable [ArrayLibrary] {c : Comparison} {l : Link}

/-- Storage that was there before is the same on both sides. The execution and
    the call start from one heap. -/
theorem Sound.get_eq (hsound : c.Sound l) {ref : HostRef} (h : ref.index < c.originals) :
    l.running.heap.get ref = l.direct.get ref := by
  have halike := hsound.alike ref ref (.inr ⟨rfl, h⟩)
  refine HostBuffer.ext_get? halike.dtype_eq fun index => halike.get_eq index ?_
  exact hsound.logged _ fun hopened => (Nat.not_lt_of_le (hsound.opened ref hopened).1 h).elim

/-- Running a recorded body, and then reading the operand that it returns. -/
theorem runFrom_body {l' : Link} {f : Fragment} {operand : Option Operand} {result : Option Numeric}
    (hreaches : c.Reaches l f l') (hresult : Option.Rel l'.Holds operand result) :
    (do
      runBlock c.call f.code
      match operand with
      | some operand => return some (← RunM.operand operand)
      | none => return none : RunM (Option Numeric)).runFrom l.running = (.ok result, l'.running) := by
  rw [Stateful.runFrom_bind_of_ok hreaches.run_eq]
  cases hresult with
  | none => rfl
  | some hholds =>
    simp only [Stateful.runFrom_bind, RunM.runFrom_operand, hholds.2, liftM_error_ok, Stateful.runFrom_pure]

end Comparison

namespace Program

/-- How the outcome of a direct execution and that of a call compare. A result
    is the same on both sides, and so is all storage that was there before. An
    error that is not excused makes the call fail. -/
def Agrees (heap : Heap) (excused : ValueError → Prop)
    (direct : Except (Failure ValueError) (Option Numeric) × World AccessLog)
    (called : Except (Failure ValueError) (Option Numeric) × Heap) : Prop :=
  match direct.1 with
  | .ok result => called.1 = .ok result ∧
      ∀ ref : HostRef, ref.index < heap.buffers.size → called.2.get ref = direct.2.heap.get ref
  | .error (.error cause) => excused cause ∨ ∃ failure, called.1 = .error failure
  | .error (.fault _) => True

section Calls

variable [ArrayLibrary] {c : Comparison} {l : Link} {inputs : List Value} {program : Program inputs.length} {f : Fragment}
  {operand : Option Operand} {executing : World AccessLog}

/-- What follows the direct execution of a program agrees with it. It is read
    off where both come to their end. -/
theorem agrees_of_follows (hexecuting : c.executingAt l = { executing with contexts := .compute :: executing.contexts })
    (horiginals : c.originals = executing.heap.buffers.size)
    (hfollows : c.Follows program.Escapes l f (do readResult (← program.body inputs))
      fun l' => Option.Rel l'.Holds operand)
    (hstored : ((program.execute inputs).runFrom executing).2.client.StoredBeforeLoaded)
    {body : RunM (Option Numeric)} (hbody : body = do
      runBlock c.call f.code
      match operand with
      | some operand => return some (← RunM.operand operand)
      | none => return none) :
    Agrees executing.heap program.Escapes ((program.execute inputs).runFrom executing)
      ((body.runFrom l.running).1, (body.runFrom l.running).2.heap) := by
  subst hbody
  cases hexecute : (program.execute inputs).runFrom executing with
  | mk outcome after =>
    rw [hexecute] at hstored
    rcases outcome with (cause | fault) | result
    · obtain ⟨inner, hinner, rfl⟩ := Action.exists_of_withContext hexecute (by simp)
      rw [← hexecuting] at hinner
      refine (hfollows _ _ hinner hstored).imp_right ?_
      rintro ⟨failure, running, hrun⟩
      exact ⟨failure, by rw [Stateful.runFrom_bind_of_error hrun]⟩
    · trivial
    · obtain ⟨inner, hinner, rfl⟩ := Action.exists_of_withContext hexecute (by simp)
      rw [← hexecuting] at hinner
      obtain ⟨l', rfl, hreaches, hresult⟩ := hfollows _ _ hinner hstored
      rw [Comparison.runFrom_body hreaches hresult]
      exact ⟨rfl, fun ref hlt => hreaches.sound.get_eq (horiginals ▸ hlt)⟩

end Calls

variable {executing recording recorded : World AccessLog} {inputs : List Value} {program : Program inputs.length}
  {moduleName : String} {config : EmitterConfig} {function : FunctionDeclaration} {id : EmitterId}

/-- Calling a function whose body is the recorded piece agrees with executing
    the program directly, however the calls in the piece are resolved as long as
    that makes no difference to it. -/
theorem agrees_call [ArrayLibrary] {values : List Value} {builder : FunctionBuilder} {bound : Frame} {f : Fragment}
    {operand : Option Operand} {c : Comparison}
    (hstarted : builder.Started function moduleName executing.heap inputs values bound)
    (hplaced : f.Placed builder.buffers.size) (hroom : f.HasRoom)
    (hdeclarations : c.declarations = (builder.extend f).buffers.toList)
    (horiginals : c.originals = executing.heap.buffers.size)
    (hexecuting : ∀ l : Link, l.direct = executing.heap → l.log = [] →
      c.executingAt l = { executing with contexts := .compute :: executing.contexts })
    (hsigned : ∀ ref : HostRef, ref.index < executing.heap.buffers.size → Word.Signed (executing.heap.get ref).length)
    (hfollows : (builder.extend f).buffers.toList <+: c.declarations → ∀ l inputs, l.At builder → c.Sound l →
      List.Forall₂ l.Matches values inputs → c.Untouched l →
        c.Follows program.Escapes l f (do readResult (← program.body inputs)) fun l' => Option.Rel l'.Holds operand)
    {call : String → HostFunction} (hcall : runBlock call f.code = runBlock c.call f.code)
    (hstored : ((program.execute inputs).runFrom executing).2.client.StoredBeforeLoaded) :
    Agrees executing.heap program.Escapes ((program.execute inputs).runFrom executing)
      (((builder.finished f operand).invoke call (arguments inputs)).runFrom executing.heap) := by
  obtain ⟨l, hat, hsound, hmatches, huntouched, hdirect, hlog, hlocals⟩ :=
    Comparison.exists_entry hstarted hplaced hroom hdeclarations horiginals hsigned
  rw [hdeclarations] at hlocals
  have hinvoke := @EmittedFunction.runFrom_invoke call (builder.finished f operand) _ _ _ _
    hstarted.length_eq hstarted.bind_eq hlocals
  rw [hinvoke]
  refine agrees_of_follows (hexecuting l hdirect hlog) horiginals
    (hfollows (hdeclarations ▸ List.prefix_refl _) l inputs hat hsound hmatches huntouched) hstored ?_
  rw [show (builder.finished f operand).body = f.code from rfl, hcall]
  rfl

/-- Calling the function that a program was recorded as agrees with executing
    the program directly. -/
theorem agrees_invoke [ArrayLibrary] (h : Recorded executing recording recorded program moduleName config function id)
    {values : List Value} {builder : FunctionBuilder} {bound : Frame} {f : Fragment} {operand : Option Operand}
    (hstarted : builder.Started function moduleName executing.heap inputs values bound)
    (hplaced : f.Placed builder.buffers.size) (hroom : f.HasRoom) {module : EmittedModule}
    (hmodule : module = ⟨moduleName, [builder.finished f operand]⟩) (hspares : module.Spares) {table : SymbolTable}
    {depth : Nat} {c : Comparison}
    (hc : c = Comparison.ofModule executing recording moduleName config hspares table depth)
    (hfollows : (builder.extend f).buffers.toList <+: c.declarations → ∀ l inputs, l.At builder → c.Sound l →
      List.Forall₂ l.Matches values inputs → c.Untouched l →
        c.Follows program.Escapes l f (do readResult (← program.body inputs)) fun l' => Option.Rel l'.Holds operand)
    {name : String} (hname : name = function.name ∨ name = function.symbol moduleName)
    (hstored : ((program.execute inputs).runFrom executing).2.client.StoredBeforeLoaded) :
    Agrees executing.heap program.Escapes ((program.execute inputs).runFrom executing)
      (((⟨module, Kernel.register table⟩ : CompiledModule).invoke (depth + 1) name
        (arguments inputs)).runFrom executing.heap) := by
  subst hmodule
  have hdeclarations : c.declarations = (builder.extend f).buffers.toList := by
    rw [hc]
    exact List.flatMap_singleton EmittedFunction.buffers (builder.finished f operand)
  have horiginals : c.originals = executing.heap.buffers.size := by
    rw [hc]
    rfl
  have hcall : (⟨⟨moduleName, [builder.finished f operand]⟩, Kernel.register table⟩ : CompiledModule).call (depth + 1) =
      c.call := by
    rw [hc]
    rfl
  have hexecuting (l : Link) (hdirect : l.direct = executing.heap) (hlog : l.log = []) :
      c.executingAt l = { executing with contexts := .compute :: executing.contexts } := by
    rw [Comparison.executingAt, hdirect, hlog, hc, ← h.client_eq]
    rfl
  have hlookup := @EmittedModule.lookup?_singleton moduleName (builder.finished f operand) name
    (hname.imp (·.trans hstarted.name_eq.symm) (·.trans hstarted.symbol_eq.symm))
  rw [CompiledModule.invoke, hlookup]
  dsimp only
  rw [hcall]
  exact agrees_call hstarted hplaced hroom hdeclarations horiginals hexecuting h.signed hfollows rfl hstored

/-- A recorded program can be finished and compiled. Where there is room for all
    storage that it asks for, calling it agrees with executing the program
    directly; without room the capacity overflows when the function is
    entered. -/
theorem Recorded.exists_module [ArrayLibrary]
    (h : Recorded executing recording recorded program moduleName config function id) :
    ∃ module, (Action.finishModule id).runFrom recorded = (.ok module, recorded) ∧ ∀ table,
      module.compile (Kernel.register table) = .ok ⟨module, Kernel.register table⟩ ∧
        ∀ depth name, name = function.name ∨ name = function.symbol moduleName →
          let called := ((⟨module, Kernel.register table⟩ : CompiledModule).invoke (depth + 1) name
            (arguments inputs)).runFrom executing.heap
          (program.HasRoom → ((program.execute inputs).runFrom executing).2.client.StoredBeforeLoaded →
            Agrees executing.heap program.Escapes ((program.execute inputs).runFrom executing) called) ∧
          (¬program.HasRoom → called.1 = .error (.fault .capacityOverflow)) := by
  obtain ⟨values, builder, hstart, hfinish⟩ := Comparison.exists_recorded executing h.define_eq
  obtain ⟨bound, hstarted⟩ := FunctionBuilder.exists_started h.input h.parameters_eq hstart
  obtain ⟨operand₀, f₀, hplaced₀, hroom, hmodule₀⟩ := hfinish hstarted.blocks_eq (EmittedModule.spares_empty "") .empty 0
    _ (Comparison.records_room_body program function values)
  have hsymbol : (builder.finished f₀ operand₀).symbol = function.symbol moduleName := hstarted.symbol_eq
  have hspares : (⟨moduleName, [builder.finished f₀ operand₀]⟩ : EmittedModule).Spares :=
    EmittedModule.spares_singleton (hsymbol ▸ h.symbol_notMem)
  refine ⟨_, hmodule₀, fun table => ⟨EmittedModule.compile_eq_ok ?_ table, fun depth name hname => ⟨fun hfits hstored => ?_, fun hfull => ?_⟩⟩⟩
  · intro found hmem
    rw [List.mem_singleton] at hmem
    subst hmem
    exact hplaced₀.symbols_mem
  · -- the same recording, now compared with the module that it has led to
    obtain ⟨operand, f, hplaced, hfollows, hmodule⟩ := hfinish hstarted.blocks_eq hspares table depth _
      (Comparison.records_body program function values)
    have hsame : (⟨moduleName, [builder.finished f₀ operand₀]⟩ : EmittedModule) =
        ⟨moduleName, [builder.finished f operand]⟩ :=
      Except.ok.inj (Prod.mk.inj (hmodule₀.symm.trans hmodule)).1
    have hroom' : f.HasRoom := by
      rw [Fragment.HasRoom, ← (FunctionBuilder.eq_of_finished_eq hsame).2]
      exact hroom.mpr hfits
    exact agrees_invoke h hstarted hplaced hroom' hsame hspares rfl hfollows hname hstored
  · have hlookup := @EmittedModule.lookup?_singleton moduleName (builder.finished f₀ operand₀) name
      (hname.imp (·.trans hstarted.name_eq.symm) (·.trans hstarted.symbol_eq.symm))
    rw [CompiledModule.invoke, hlookup]
    exact hstarted.fst_invoke_of_full hplaced₀ (fun hfits => hfull (hroom.mp hfits)) _ _

end Program

end StagedArrays
