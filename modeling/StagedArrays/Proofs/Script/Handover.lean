import StagedArrays.Proofs.Script.Recording
import StagedArrays.Proofs.Script.Scope
import StagedArrays.Proofs.Script.WellFormed

namespace StagedArrays

namespace RunM

/-- A sequence of host operations may be taken apart inside a call. The frame is
    not touched by either. -/
theorem onHeap_bind {α β : Type} (action : HeapM α) (next : α → HeapM β) :
    RunM.onHeap (action >>= next) = (do RunM.onHeap (next (← RunM.onHeap action))) := by
  refine funext fun running => ?_
  change (RunM.onHeap (action >>= next)).runFrom running = (do RunM.onHeap (next (← RunM.onHeap action))).runFrom running
  rw [Stateful.runFrom_bind, runFrom_onHeap, runFrom_onHeap, Stateful.runFrom_bind]
  rcases action.runFrom running.heap with ⟨_ | value, after⟩
  · rfl
  · exact (runFrom_onHeap (next value) ⟨running.frame, after⟩).symm

end RunM

namespace EmittedModule

/-- A compiled module has the functions of the module. Compiling only checks
    that what they call can be found. -/
theorem program_eq_of_compile {module : EmittedModule} {table : SymbolTable} {compiled : CompiledModule}
    (h : module.compile table = .ok compiled) : compiled.program = module ∧ compiled.symbols = table := by
  unfold compile at h
  split at h
  · cases h
  · cases h
    exact ⟨rfl, rfl⟩

end EmittedModule

namespace EmittedFunction

/-- The frame in which the body of a function begins: arguments are bound, and
    storage of the function's own. -/
def enter (function : EmittedFunction) (args : List HostArgument) : HeapM Frame := do
  if args.length ≠ function.parameters.length then
    throw (.error (.invalidArgument (.argumentCount function.name function.parameters.length args.length)))
  let bound ← Frame.bindArguments (← get) function.name function.bindings function.parameters args {}
  Frame.bindLocals function.buffers bound

/-- Executes the body, and gives the result. The result is read once the body
    has ended. -/
def execute (call : String → HostFunction) (function : EmittedFunction) : RunM (Option Numeric) := do
  runBlock call function.body
  match function.result with
  | some operand => return some (← RunM.operand operand)
  | none => return none

/-- Executes the body in a frame of its own. Of the frame nothing is left
    afterwards. -/
def executeIn (call : String → HostFunction) (function : EmittedFunction) (frame : Frame) : HeapM (Option Numeric) :=
  fun heap =>
    let (result, running) := Stateful.runFrom (function.execute call) ⟨frame, heap⟩
    (result, running.heap)

variable {call : String → HostFunction} {function : EmittedFunction} {args : List HostArgument}

theorem runFrom_executeIn (frame : Frame) (heap : Heap) : (function.executeIn call frame).runFrom heap =
    (((function.execute call).runFrom ⟨frame, heap⟩).1, ((function.execute call).runFrom ⟨frame, heap⟩).2.heap) := rfl

/-- A call binds its arguments, and executes the body then. The two are looked
    at separately from here on. -/
theorem invoke_eq : function.invoke call args = (do function.executeIn call (← function.enter args)) := by
  unfold invoke enter
  by_cases hlength : args.length = function.parameters.length
  · simp only [hlength, ne_eq, not_true, ite_false, bind_assoc]
    rfl
  · simp only [ne_eq, hlength, not_false_eq_true, ite_true, bind_assoc]
    rfl

/-- A call to a symbol of the module enters the function of that symbol, and
    executes its body. -/
theorem run_call {module : EmittedModule} {table : SymbolTable} {compiled : CompiledModule} {symbol : String}
    (hcompile : module.compile table = .ok compiled) (hsymbol : module.bySymbol? symbol = some function)
    (arguments : List CallArgument) (output : Option RegisterId) (depth : Nat) :
    (Instruction.call symbol arguments output).run (compiled.call (depth + 1)) = (do
      let handed ← RunM.arguments arguments
      let entered ← RunM.onHeap (function.enter handed)
      let result ← RunM.onHeap (function.executeIn (compiled.call depth) entered)
      RunM.keep symbol result output) := by
  obtain ⟨hprogram, -⟩ := EmittedModule.program_eq_of_compile hcompile
  simp only [Instruction.run]
  refine bind_congr fun handed => ?_
  have hcall : compiled.call (depth + 1) symbol handed = function.invoke (compiled.call depth) handed := by
    rw [CompiledModule.call, hprogram, hsymbol]
  rw [hcall, invoke_eq, RunM.onHeap_bind, bind_assoc]

/-- What has been entered has bound as many arguments as there are
    parameters. -/
theorem exists_of_enter {heap after : Heap} {entered : Frame}
    (h : (function.enter args).runFrom heap = (.ok entered, after)) :
    args.length = function.parameters.length ∧
      ∃ bound, Frame.bindArguments heap function.name function.bindings function.parameters args {} = .ok bound ∧
        (Frame.bindLocals function.buffers bound).runFrom heap = (.ok entered, after) := by
  unfold enter at h
  by_cases hlength : args.length = function.parameters.length
  · simp only [hlength, ne_eq, not_true, ite_false] at h
    obtain ⟨current, heap', hget, h⟩ := Stateful.runFrom_bind_eq_ok.mp h
    cases hget
    obtain ⟨bound, heap', hbind, h⟩ := Stateful.runFrom_bind_eq_ok.mp h
    rw [Stateful.runFrom_liftM, liftM_self, Prod.mk.injEq] at hbind
    obtain ⟨hbind, rfl⟩ := hbind
    exact ⟨hlength, bound, hbind, h⟩
  · simp only [ne_eq, hlength, not_false_eq_true, ite_true] at h
    cases h

end EmittedFunction

namespace Frame

variable {heap : Heap} {function : String}

theorem registers_assign (frame : Frame) (register id : RegisterId) (x : Numeric) :
    (frame.assign register x).registers[id]? = if register = id then some x else frame.registers[id]? := by
  simp [assign, Std.HashMap.getElem?_insert]

/-- How a frame has taken in an argument for a parameter: an immediate in a
    register, and storage, which reaches as far as the layout does, as it is. -/
inductive Takes (heap : Heap) (frame : Frame) : Value → HostArgument → Prop where
  | scalar {dtype : DType} {register : RegisterId} {x : Numeric} (assigned : frame.registers[register]? = some x)
      (dtype_eq : x.dtype = dtype) : Takes heap frame (.register dtype register) (.scalar x)
  | buffer {dtype : DType} {layout : Layout} {id : BufferId} {ref : HostRef} {offset size : Nat}
      (bound : frame.buffers[id]? = some (ref, offset)) (dtype_eq : (heap.get ref).dtype = dtype)
      (size_eq : layout.memorySize = .ok size) (lt_bound : offset + size < Word.bound)
      (le_length : offset + size ≤ (heap.get ref).length) :
      Takes heap frame (.emittedBuffer dtype layout id) (.buffer ref offset)

/-- Only storage is taken in for a pointer. The buffer is bound to it with its
    offset. -/
theorem Takes.exists_of_buffer {frame : Frame} {dtype : DType} {layout : Layout} {id : BufferId} {arg : HostArgument}
    (h : Takes heap frame (.emittedBuffer dtype layout id) arg) :
    ∃ ref offset size, arg = .buffer ref offset ∧ frame.buffers[id]? = some (ref, offset) ∧
      layout.memorySize = .ok size ∧ offset + size < Word.bound ∧ offset + size ≤ (heap.get ref).length := by
  cases h with
  | buffer hbound _ hsize hlt hle => exact ⟨_, _, _, rfl, hbound, hsize, hlt, hle⟩

/-- A frame that differs from another one only in what it has bound for some
    parameters. -/
structure Receives (heap : Heap) (builder after : FunctionBuilder) (values : List Value) (args : List HostArgument)
    (frame bound : Frame) : Prop where
  size_le : builder.buffers.size ≤ after.buffers.size
  nextRegister_le : builder.nextRegister ≤ after.nextRegister
  takes : List.Forall₂ (Takes heap bound) values args
  id_lt : ∀ value ∈ values, ∀ id offset, value.data = .buffer id offset → id.index < after.buffers.size
  register_lt : ∀ value ∈ values, ∀ id, value.data = .register id → id.index < after.nextRegister
  buffers_eq : ∀ id : BufferId, id.index < builder.buffers.size → bound.buffers[id]? = frame.buffers[id]?
  registers_eq : ∀ id : RegisterId, id.index < builder.nextRegister → bound.registers[id]? = frame.registers[id]?
  origin : ∀ (id : BufferId) (ref : HostRef) (offset : Nat), bound.buffers[id]? = some (ref, offset) →
    frame.buffers[id]? = some (ref, offset) ∨ id ∈ values.flatMap Value.buffers ∧ .buffer ref offset ∈ args
  assigned : ∀ (id : RegisterId) (x : Numeric), bound.registers[id]? = some x →
    frame.registers[id]? = some x ∨ id.index < after.nextRegister

/-- Without parameters a frame takes in nothing. -/
theorem Receives.nil (heap : Heap) (builder : FunctionBuilder) (frame : Frame) :
    Receives heap builder builder [] [] frame frame := by
  refine ⟨Nat.le_refl _, Nat.le_refl _, .nil, ?_, ?_, fun _ _ => rfl, fun _ _ => rfl, fun _ _ _ hget => .inl hget,
    fun _ _ hget => .inl hget⟩
  · simp
  · simp

/-- What a frame has taken in stays when the same registers and buffers keep
    what they hold. -/
theorem Takes.congr {frame bound : Frame} {value : Value} {arg : HostArgument}
    (hregisters : ∀ id, value.data = .register id → bound.registers[id]? = frame.registers[id]?)
    (hbuffers : ∀ id offset, value.data = .buffer id offset → bound.buffers[id]? = frame.buffers[id]?)
    (h : Takes heap frame value arg) : Takes heap bound value arg := by
  cases h with
  | scalar hassigned hdtype => exact .scalar ((hregisters _ rfl).trans hassigned) hdtype
  | buffer hbound hdtype hsize hlt hle => exact .buffer ((hbuffers _ _ rfl).trans hbound) hdtype hsize hlt hle

/-- One argument is taken in before the rest. -/
theorem Receives.cons {builder next after : FunctionBuilder} {value : Value} {values : List Value} {arg : HostArgument}
    {args : List HostArgument} {frame inner bound : Frame} (h : Receives heap builder next [value] [arg] frame inner)
    (hrest : Receives heap next after values args inner bound) :
    Receives heap builder after (value :: values) (arg :: args) frame bound where
  size_le := Nat.le_trans h.size_le hrest.size_le
  nextRegister_le := Nat.le_trans h.nextRegister_le hrest.nextRegister_le
  takes := by
    cases h.takes with
    | cons htakes _ =>
      refine .cons (htakes.congr (fun id hdata => ?_) fun id offset hdata => ?_) hrest.takes
      · exact hrest.registers_eq id (h.register_lt value List.mem_cons_self id hdata)
      · exact hrest.buffers_eq id (h.id_lt value List.mem_cons_self id offset hdata)
  id_lt found hmem id offset hdata := by
    rcases List.mem_cons.mp hmem with rfl | hmem
    · exact Nat.lt_of_lt_of_le (h.id_lt found List.mem_cons_self id offset hdata) hrest.size_le
    · exact hrest.id_lt found hmem id offset hdata
  register_lt found hmem id hdata := by
    rcases List.mem_cons.mp hmem with rfl | hmem
    · exact Nat.lt_of_lt_of_le (h.register_lt found List.mem_cons_self id hdata) hrest.nextRegister_le
    · exact hrest.register_lt found hmem id hdata
  buffers_eq id hlt := (hrest.buffers_eq id (Nat.lt_of_lt_of_le hlt h.size_le)).trans (h.buffers_eq id hlt)
  registers_eq id hlt :=
    (hrest.registers_eq id (Nat.lt_of_lt_of_le hlt h.nextRegister_le)).trans (h.registers_eq id hlt)
  origin id ref offset hget := by
    rcases hrest.origin id ref offset hget with hinner | ⟨hid, hmem⟩
    · rcases h.origin id ref offset hinner with hframe | ⟨hid, hmem⟩
      · exact .inl hframe
      · refine .inr ⟨?_, List.mem_cons.mpr (.inl (List.mem_singleton.mp hmem))⟩
        rw [List.flatMap_singleton] at hid
        exact List.mem_append_left _ hid
    · exact .inr ⟨List.mem_append_right _ hid, List.mem_cons_of_mem _ hmem⟩
  assigned id x hget := by
    rcases hrest.assigned id x hget with hinner | hlt
    · rcases h.assigned id x hinner with hframe | hlt
      · exact .inl hframe
      · exact .inr (Nat.lt_of_lt_of_le hlt hrest.nextRegister_le)
    · exact .inr hlt

/-- A register is bound to an immediate of the declared type only. Otherwise
    there is an error and nothing is bound. -/
theorem exists_of_bindArgument_register {frame bound : Frame} {register : RegisterId} {type : ValueType}
    {arg : HostArgument} (h : frame.bindArgument heap function (.register register) type arg = .ok bound) :
    ∃ x, arg = .scalar x ∧ x.dtype = type.dtype ∧ bound = frame.assign register x := by
  cases arg with
  | buffer => cases h
  | scalar x =>
    simp only [bindArgument] at h
    split at h
    · cases h
    · next hdtype =>
      cases h
      exact ⟨x, rfl, not_not.mp hdtype, rfl⟩

/-- A buffer is bound to storage of the declared type that reaches as far as the
    layout from its offset on. Extents and increments of the argument are not
    compared. -/
theorem exists_of_bindArgument_buffer {frame bound : Frame} {id : BufferId} {type : ValueType} {arg : HostArgument}
    (h : frame.bindArgument heap function (.buffer id) type arg = .ok bound) :
    ∃ ref offset size, arg = .buffer ref offset ∧ (heap.get ref).dtype = type.dtype ∧
      type.layout.memorySize = .ok size ∧ offset + size < Word.bound ∧ offset + size ≤ (heap.get ref).length ∧
        bound = frame.bind id ref offset := by
  cases arg with
  | scalar => cases h
  | buffer ref offset =>
    simp only [bindArgument] at h
    split at h
    · cases h
    · next hdtype =>
      obtain ⟨size, hsize, h⟩ := bind_eq_ok_iff.mp h
      obtain ⟨needed, hneeded, h⟩ := bind_eq_ok_iff.mp h
      obtain ⟨rfl, hlt⟩ := Word.add_eq_ok_iff.mp (liftM_fault_eq_ok_iff.mp hneeded)
      split at h
      · cases h
      · next hle =>
        cases h
        exact ⟨ref, offset, size, rfl, not_not.mp hdtype, liftM_fault_eq_ok_iff.mp hsize, hlt, Nat.le_of_not_lt hle, rfl⟩

end Frame

namespace FunctionBuilder

/-- An argument is taken in for a parameter as the parameter is bound. Both take
    the next register or the next buffer. -/
theorem Binds.exists_receives {index : Nat} {type : ValueType} {builder after : FunctionBuilder} {value : Value}
    (h : builder.Binds index type value after) :
    ∃ binding, after.bindings = builder.bindings.push binding ∧
      ∀ (heap : Heap) (function : String) (arg : HostArgument) (frame bound : Frame),
        frame.bindArgument heap function binding type arg = .ok bound →
          Frame.Receives heap builder after [value] [arg] frame bound := by
  cases h with
  | register =>
    refine ⟨_, rfl, fun heap function arg frame bound hbind => ?_⟩
    obtain ⟨x, rfl, hdtype, rfl⟩ := Frame.exists_of_bindArgument_register hbind
    refine ⟨Nat.le_refl _, Nat.le_succ _, .cons (.scalar ?_ hdtype) .nil, ?_, ?_, fun _ _ => rfl, fun id hlt => ?_,
      fun _ _ _ hget => .inl hget, fun id y hget => ?_⟩
    · simp [Frame.assign]
    · simp [Value.register]
    · simp [Value.register]
    · have hne : (⟨builder.nextRegister⟩ : RegisterId) ≠ id := by
        rintro rfl
        exact Nat.lt_irrefl _ hlt
      simp [Frame.assign, Std.HashMap.getElem?_insert, hne]
    · rw [Frame.registers_assign] at hget
      split at hget
      · next heq =>
        subst heq
        exact .inr (Nat.lt_succ_self _)
      · exact .inl hget
  | buffer =>
    refine ⟨_, rfl, fun heap function arg frame bound hbind => ?_⟩
    obtain ⟨ref, offset, size, rfl, hdtype, hsize, hlt, hle, rfl⟩ := Frame.exists_of_bindArgument_buffer hbind
    refine ⟨?_, Nat.le_refl _, .cons (.buffer ?_ hdtype hsize hlt hle) .nil, ?_, ?_, fun id hlt => ?_, fun _ _ => rfl,
      fun id found start hget => ?_, fun _ _ hget => .inl hget⟩
    · simp
    · rw [Frame.buffers_bind, if_pos rfl]
    · simp [Value.emittedBuffer]
    · simp [Value.emittedBuffer]
    · rw [Frame.buffers_bind, if_neg]
      rintro rfl
      exact Nat.lt_irrefl _ hlt
    · rw [Frame.buffers_bind] at hget
      split at hget
      · next heq =>
        cases hget
        exact .inr ⟨List.mem_singleton.mpr heq.symm, List.mem_cons_self⟩
      · exact .inl hget

/-- Arguments that are bound one after another are taken in for the
    parameters. -/
theorem exists_receives {index : Nat} {types : List ValueType} {builder after : FunctionBuilder} {values : List Value}
    (h : bindParameters index types builder = .ok (values, after)) :
    ∃ bindings : List ParameterBinding, after.bindings = builder.bindings ++ bindings.toArray ∧
      ∀ (heap : Heap) (function : String) (args : List HostArgument) (frame bound : Frame),
        args.length = types.length → Frame.bindArguments heap function bindings types args frame = .ok bound →
          Frame.Receives heap builder after values args frame bound := by
  induction types generalizing index builder values with
  | nil =>
    cases h
    refine ⟨[], by simp, fun heap function args frame bound hlength hbind => ?_⟩
    rw [List.length_nil, List.length_eq_zero_iff] at hlength
    subst hlength
    cases hbind
    exact .nil heap _ frame
  | cons type types ih =>
    obtain ⟨value, next, rest, hbinds, hrest, rfl⟩ := exists_binds h
    obtain ⟨binding, hbinding, hfirst⟩ := hbinds.exists_receives
    obtain ⟨bindings, hbindings, hreceives⟩ := ih hrest
    refine ⟨binding :: bindings, ?_, fun heap function args frame bound hlength hbind => ?_⟩
    · rw [hbindings, hbinding]
      simp
    · cases args with
      | nil => cases hlength
      | cons arg args =>
        obtain ⟨inner, hinner, hbind⟩ := bind_eq_ok_iff.mp hbind
        refine (hfirst heap function arg frame inner hinner).cons ?_
        exact hreceives heap function args inner bound (Nat.succ_inj.mp hlength) hbind

/-- A call takes in its arguments for the parameters of a function that has been
    started. -/
theorem exists_receives_start {function : FunctionDeclaration} {moduleName : String} {builder : FunctionBuilder}
    {values : List Value} {heap : Heap} {name : String} {args : List HostArgument} {bound : Frame}
    (hstart : start function moduleName = .ok (values, builder)) (hlength : args.length = builder.parameters.length)
    (hbind : Frame.bindArguments heap name builder.bindings.toList builder.parameters args {} = .ok bound) :
    ∃ first : FunctionBuilder, Frame.Receives heap first builder values args {} bound := by
  obtain ⟨bindings, hbindings, hreceives⟩ := exists_receives hstart
  have htoList : builder.bindings.toList = bindings := by
    rw [hbindings]
    simp
  rw [parameters_start hstart] at hlength hbind
  rw [htoList] at hbind
  exact ⟨_, hreceives heap name args {} bound hlength hbind⟩

/-- What parameters are known by has the declared types, in order. -/
theorem forall₂_of_bindParameters {index : Nat} {types : List ValueType} {builder after : FunctionBuilder}
    {values : List Value} (h : bindParameters index types builder = .ok (values, after)) :
    List.Forall₂ (fun type value => (type.pointerLevel = 0 ∧ ∃ id, value = .register type.dtype id) ∨
      type.pointerLevel ≠ 0 ∧ ∃ id, value = .emittedBuffer type.dtype type.layout id) types values := by
  induction types generalizing index builder values with
  | nil =>
    cases h
    exact .nil
  | cons type types ih =>
    obtain ⟨value, next, rest, hbinds, hrest, rfl⟩ := exists_binds h
    refine .cons ?_ (ih hrest)
    cases hbinds with
    | register hlevel => exact .inl ⟨hlevel, _, rfl⟩
    | buffer hlevel => exact .inr ⟨hlevel, _, rfl⟩

end FunctionBuilder

namespace Frame

/-- Storage of the function's own is bound to no buffer but those that are
    declared for it. -/
theorem eq_of_bindLocals {declarations : List BufferDeclaration} {frame entered : Frame} {heap after : Heap}
    (h : (bindLocals declarations frame).runFrom heap = (.ok entered, after)) :
    entered.registers = frame.registers ∧ ∀ id, (∀ declaration ∈ declarations, declaration.isLocal = true →
      declaration.id ≠ id) → entered.buffers[id]? = frame.buffers[id]? := by
  induction declarations generalizing frame heap with
  | nil =>
    cases h
    exact ⟨rfl, fun _ _ => rfl⟩
  | cons declaration declarations ih =>
    cases hlocal : declaration.isLocal with
    | false =>
      rw [bindLocals_of_isLocal_eq_false hlocal] at h
      obtain ⟨hregisters, hbuffers⟩ := ih h
      exact ⟨hregisters, fun id hid => hbuffers id fun found hmem => hid found (List.mem_cons_of_mem _ hmem)⟩
    | true =>
      have hroom : declaration.dtype.reserve declaration.length = .ok () := by
        rcases declaration.dtype.reserve_cases declaration.length with hroom | hroom
        · exact hroom
        · rw [runFrom_bindLocals_of_full hlocal hroom] at h
          cases h
      rw [runFrom_bindLocals_of_reserve hlocal hroom] at h
      obtain ⟨hregisters, hbuffers⟩ := ih h
      refine ⟨hregisters, fun id hid => ?_⟩
      rw [hbuffers id fun found hmem => hid found (List.mem_cons_of_mem _ hmem), buffers_bind,
        if_neg (hid declaration List.mem_cons_self hlocal)]

end Frame

/-- When a function begins, its frame has taken in the arguments for its
    parameters. -/
theorem Emitter.Recorded.forall₂_takes {emitter : Emitter} {function : EmittedFunction} {transcript : Transcript}
    {args : List HostArgument} {heap after : Heap} {entered : Frame} (h : emitter.Recorded function transcript)
    (henter : (function.enter args).runFrom heap = (.ok entered, after)) :
    List.Forall₂ (Frame.Takes heap entered) transcript.parameters args := by
  obtain ⟨hstart, hbody, -, horderly, -⟩ := h
  next declared parameters builder _ f g _ operand =>
  obtain ⟨hlength, bound, hbind, hlocals⟩ := EmittedFunction.exists_of_enter henter
  obtain ⟨first, hreceives⟩ := FunctionBuilder.exists_receives_start hstart hlength hbind
  obtain ⟨hregisters, hbuffers⟩ := Frame.eq_of_bindLocals hlocals
  have horderly' := hbody.orderly.append horderly
  have htakes := (List.forall₂_and_left _ _).mpr ⟨fun _ => id, hreceives.takes⟩
  refine htakes.imp fun value arg ⟨hmem, htakes⟩ => htakes.congr (fun id hdata => ?_) fun id offset hdata => ?_
  · rw [hregisters]
  · refine hbuffers id fun declaration hmem' hlocal heq => ?_
    have hle := (FunctionBuilder.entering_start hstart).le_of_isLocal horderly' hmem' hlocal
    have hlt := hreceives.id_lt value hmem id offset hdata
    rw [heq] at hle
    omega

end StagedArrays
