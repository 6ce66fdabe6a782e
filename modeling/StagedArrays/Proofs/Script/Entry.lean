import StagedArrays.Proofs.Related
import StagedArrays.Proofs.Script.Execution

namespace StagedArrays

namespace Frame

variable {heap after : Heap} {frame bound entered : Frame} {function : String}

/-- The register of a value that was taken in is assigned. A parameter that is a
    buffer begins at a fixed place in it. -/
theorem Takes.isSome_register {value : Value} {arg : HostArgument} (h : Takes heap frame value arg) :
    ∀ id ∈ value.registers, frame.registers[id]?.isSome := by
  intro id hmem
  cases h with
  | scalar hassigned =>
    cases List.mem_singleton.mp hmem
    rw [hassigned]
    rfl
  | buffer => cases hmem

/-- The buffer of a parameter is the storage that an argument hands over. Two
    parameters may come to share it. -/
theorem Takes.exists_of_mem_buffers {value : Value} {arg : HostArgument} (h : Takes heap frame value arg) {id : BufferId}
    (hmem : id ∈ value.buffers) : ∃ ref offset, arg = .buffer ref offset ∧ frame.buffers[id]? = some (ref, offset) := by
  cases h with
  | scalar => cases hmem
  | buffer hbound =>
    cases List.mem_singleton.mp hmem
    exact ⟨_, _, rfl, hbound⟩

/-- An argument is bound or refused. Neither a register nor a buffer can be
    missing at this point. -/
theorem resolved_bindArgument (binding : ParameterBinding) (type : ValueType) (arg : HostArgument) :
    Outcome.Resolved (frame.bindArgument heap function binding type arg) := by
  unfold bindArgument
  split
  · split
    · exact Outcome.resolved_error id
    · exact Outcome.resolved_ok _
  · dsimp only
    split
    · exact Outcome.resolved_error id
    · refine .bind (Outcome.resolved_liftFault _) fun size _ => .bind (Outcome.resolved_liftFault _) fun needed _ => ?_
      split
      · exact Outcome.resolved_error id
      · exact Outcome.resolved_ok _
  · exact Outcome.resolved_error id

/-- The same for all arguments of a call. -/
theorem resolved_bindArguments (bindings : List ParameterBinding) (types : List ValueType) (args : List HostArgument) :
    Outcome.Resolved (bindArguments heap function bindings types args frame) := by
  induction bindings generalizing types args frame with
  | nil => exact Outcome.resolved_ok _
  | cons binding bindings ih =>
    cases types with
    | nil => exact Outcome.resolved_ok _
    | cons type types =>
      cases args with
      | nil => exact Outcome.resolved_ok _
      | cons arg args => exact .bind (resolved_bindArgument binding type arg) fun _ _ => ih types args

/-- Storage that a function has declared for itself has been added to that which
    there was. -/
structure Furnished (declarations : List BufferDeclaration) (heap : Heap) (frame : Frame) (after : Heap) (entered : Frame) :
    Prop where
  size_le : heap.buffers.size ≤ after.buffers.size
  get_eq : ∀ ref : HostRef, ref.index < heap.buffers.size → after.get ref = heap.get ref
  isSome_buffer : ∀ id : BufferId, frame.buffers[id]?.isSome → entered.buffers[id]?.isSome
  isSome_local : ∀ declaration ∈ declarations, declaration.isLocal = true → entered.buffers[declaration.id]?.isSome
  origin : ∀ (id : BufferId) (ref : HostRef) (base : Nat), entered.buffers[id]? = some (ref, base) →
    frame.buffers[id]? = some (ref, base) ∨ heap.buffers.size ≤ ref.index

theorem Furnished.nil (heap : Heap) (frame : Frame) : Furnished [] heap frame heap frame := by
  refine ⟨Nat.le_refl _, fun _ _ => rfl, fun _ => id, ?_, fun _ _ _ hget => .inl hget⟩
  simp

/-- One buffer more has been added for one declaration more. It is new, and
    filled with zeros. -/
theorem Furnished.cons {declaration : BufferDeclaration} {declarations : List BufferDeclaration}
    (h : Furnished declarations (heap.add (.zeros declaration.dtype declaration.length)).2
      (frame.bind declaration.id ⟨heap.buffers.size⟩ 0) after entered) :
    Furnished (declaration :: declarations) heap frame after entered := by
  have hsize := h.size_le
  rw [Heap.size_add] at hsize
  refine ⟨Nat.le_of_succ_le hsize, fun ref hlt => ?_, fun id hid => h.isSome_buffer id ?_, fun found hmem hlocal => ?_,
    fun id ref base hget => ?_⟩
  · rw [h.get_eq ref (by rw [Heap.size_add]; exact Nat.lt_succ_of_lt hlt), Heap.get_add_of_lt _ _ hlt]
  · rw [buffers_bind]
    split
    · rfl
    · exact hid
  · rcases List.mem_cons.mp hmem with rfl | hmem
    · refine h.isSome_buffer found.id ?_
      rw [buffers_bind, if_pos rfl]
      rfl
    · exact h.isSome_local found hmem hlocal
  · rcases h.origin id ref base hget with hbound | hge
    · rw [buffers_bind] at hbound
      split at hbound
      · cases hbound
        exact .inr (Nat.le_refl _)
      · exact .inl hbound
    · rw [Heap.size_add] at hge
      exact .inr (Nat.le_of_succ_le hge)

/-- No storage is added for the declaration of a parameter. -/
theorem Furnished.cons_of_isLocal_eq_false {declaration : BufferDeclaration} {declarations : List BufferDeclaration}
    (hlocal : declaration.isLocal = false) (h : Furnished declarations heap frame after entered) :
    Furnished (declaration :: declarations) heap frame after entered := by
  refine ⟨h.size_le, h.get_eq, h.isSome_buffer, fun found hmem hown => ?_, h.origin⟩
  rcases List.mem_cons.mp hmem with rfl | hmem
  · rw [hlocal] at hown
    cases hown
  · exact h.isSome_local found hmem hown

/-- The function's own buffers are given storage, or there is no room for one of
    them. What there was before is left alone either way. -/
theorem furnished_or_full (declarations : List BufferDeclaration) (frame : Frame) (heap : Heap) :
    (∃ entered after, (bindLocals declarations frame).runFrom heap = (.ok entered, after) ∧
        Furnished declarations heap frame after entered) ∨
      ∃ after, (bindLocals declarations frame).runFrom heap = (.error (.fault .capacityOverflow), after) ∧
        ∀ ref : HostRef, ref.index < heap.buffers.size → after.get ref = heap.get ref := by
  induction declarations generalizing frame heap with
  | nil => exact .inl ⟨frame, heap, rfl, .nil heap frame⟩
  | cons declaration declarations ih =>
    cases hlocal : declaration.isLocal with
    | false =>
      rw [bindLocals_of_isLocal_eq_false hlocal]
      refine (ih frame heap).imp_left ?_
      rintro ⟨entered, after, hrun, hfurnished⟩
      exact ⟨entered, after, hrun, hfurnished.cons_of_isLocal_eq_false hlocal⟩
    | true =>
      rcases declaration.dtype.reserve_cases declaration.length with hroom | hroom
      · rw [runFrom_bindLocals_of_reserve hlocal hroom]
        refine (ih (frame.bind declaration.id ⟨heap.buffers.size⟩ 0)
          (heap.add (.zeros declaration.dtype declaration.length)).2).imp ?_ ?_
        · rintro ⟨entered, after, hrun, hfurnished⟩
          exact ⟨entered, after, hrun, hfurnished.cons⟩
        · rintro ⟨after, hrun, hget⟩
          refine ⟨after, hrun, fun ref hlt => ?_⟩
          rw [hget ref (by rw [Heap.size_add]; exact Nat.lt_succ_of_lt hlt), Heap.get_add_of_lt _ _ hlt]
      · rw [runFrom_bindLocals_of_full hlocal hroom]
        exact .inr ⟨heap, rfl, fun _ _ => rfl⟩

/-- A call that has got past the binding of its own storage has new storage for
    each declaration of its own, and the storage there was is unchanged. -/
theorem furnished_of_bindLocals {declarations : List BufferDeclaration}
    (h : (bindLocals declarations frame).runFrom heap = (.ok entered, after)) : Furnished declarations heap frame after entered := by
  obtain ⟨entered', after', hrun, hfurnished⟩ | ⟨after', hrun, -⟩ := furnished_or_full declarations frame heap
  · cases h.symm.trans hrun
    exact hfurnished
  · cases h.symm.trans hrun

end Frame

namespace FunctionBuilder

variable {index : Nat} {type : ValueType} {types : List ValueType} {builder after : FunctionBuilder} {value : Value}
  {values : List Value}

/-- To bind a parameter declares the buffer or assigns the register that it is
    known by. Nothing else is added. -/
theorem Binds.eq_append (h : builder.Binds index type value after) :
    after.declared = builder.declared ++ value.buffers ∧ after.assigned = builder.assigned ++ value.registers := by
  cases h <;> simp [declared, assigned, ParameterBinding.register?, Value.buffers, Value.registers, Value.register,
    Value.emittedBuffer, Operand.registers]

/-- What binding parameters has declared and assigned is what they are known
    by. -/
theorem eq_append_of_bindParameters (h : bindParameters index types builder = .ok (values, after)) :
    after.declared = builder.declared ++ values.flatMap Value.buffers ∧
      after.assigned = builder.assigned ++ values.flatMap Value.registers := by
  induction types generalizing index builder values with
  | nil =>
    cases h
    simp
  | cons type types ih =>
    obtain ⟨value, next, rest, hbinds, hrest, rfl⟩ := exists_binds h
    obtain ⟨hdeclared, hassigned⟩ := hbinds.eq_append
    obtain ⟨hdeclared', hassigned'⟩ := ih hrest
    rw [hdeclared', hassigned', hdeclared, hassigned]
    simp

theorem eq_flatMap_of_start {function : FunctionDeclaration} {moduleName : String}
    (h : start function moduleName = .ok (values, builder)) :
    builder.declared = values.flatMap Value.buffers ∧ builder.assigned = values.flatMap Value.registers :=
  eq_append_of_bindParameters h

end FunctionBuilder

namespace EmittedFunction

variable {function : EmittedFunction} {heap after : Heap} {args : List HostArgument} {entered : Frame}
  {call : String → HostFunction}

/-- Entering a function lacks no register and no buffer. It may fail for its
    arguments, or for lack of room. -/
theorem resolved_enter : Outcome.Resolved ((function.enter args).runFrom heap).1 := by
  unfold enter
  by_cases hlength : args.length = function.parameters.length
  · simp only [hlength, ne_eq, not_true, ite_false]
    refine Outcome.resolved_bind (Outcome.resolved_ok _) fun current _ _ => ?_
    refine Outcome.resolved_bind (Frame.resolved_bindArguments _ _ _) fun bound _ _ => ?_
    obtain ⟨entered, final, hrun, -⟩ | ⟨final, hrun, -⟩ := Frame.furnished_or_full function.buffers bound ‹_›
    · rw [hrun]
      exact Outcome.resolved_ok _
    · rw [hrun]
      exact Outcome.resolved_liftFault (.error .capacityOverflow)
  · simp only [ne_eq, hlength, not_false_eq_true, ite_true]
    exact Outcome.resolved_error id

end EmittedFunction

namespace Emitter

variable {emitter : Emitter} {function : EmittedFunction} {transcript : Transcript} {heap after : Heap}
  {args : List HostArgument} {entered : Frame} {call : String → HostFunction}

/-- When a function begins, each buffer that it declares is bound, and each
    register of a parameter is assigned. -/
theorem Recorded.provides_of_enter (h : emitter.Recorded function transcript)
    (henter : (function.enter args).runFrom heap = (.ok entered, after)) :
    entered.Provides (function.buffers.map BufferDeclaration.id) (function.bindings.filterMap ParameterBinding.register?) := by
  have htakes := h.forall₂_takes henter
  obtain ⟨hstart, hbody, -, horderly, -⟩ := h
  next declared parameters builder events f g result operand =>
  obtain ⟨-, bound, -, hlocals⟩ := EmittedFunction.exists_of_enter henter
  have hfurnished := Frame.furnished_of_bindLocals hlocals
  obtain ⟨hdeclared, hassigned⟩ := FunctionBuilder.eq_flatMap_of_start hstart
  refine ⟨fun id hmem => ?_, fun id hmem => ?_⟩
  · change id ∈ (builder.extend (f.append g)).declared at hmem
    rw [FunctionBuilder.declared_extend, List.mem_append, hdeclared] at hmem
    rcases hmem with hmem | hmem
    · obtain ⟨value, hvalue, hid⟩ := List.mem_flatMap.mp hmem
      obtain ⟨arg, -, htaken⟩ := exists_of_forall₂_of_mem htakes hvalue
      obtain ⟨ref, offset, -, hbound⟩ := htaken.exists_of_mem_buffers hid
      rw [hbound]
      rfl
    · obtain ⟨declaration, hdeclaration, rfl⟩ := List.mem_map.mp hmem
      refine hfurnished.isSome_local declaration ?_ ?_
      · simp [FunctionBuilder.finished, hdeclaration]
      · rw [BufferDeclaration.isLocal, (hbody.orderly.append horderly).source_eq declaration hdeclaration]
        rfl
  · change id ∈ builder.assigned at hmem
    rw [hassigned] at hmem
    obtain ⟨value, hvalue, hid⟩ := List.mem_flatMap.mp hmem
    obtain ⟨arg, -, htaken⟩ := exists_of_forall₂_of_mem htakes hvalue
    exact htaken.isSome_register id hid

/-- A closed function never lacks anything, unless a function that it calls
    does. -/
theorem Recorded.resolves_invoke (h : emitter.Recorded function transcript) (hclosed : function.Closed)
    (hcall : ∀ symbol ∈ function.referencedSymbols, HostFunction.Resolves (call symbol)) :
    HostFunction.Resolves (function.invoke call) := by
  intro args heap
  rw [EmittedFunction.invoke_eq]
  refine Outcome.resolved_bind EmittedFunction.resolved_enter fun entered after henter => ?_
  have hprovides := h.provides_of_enter henter
  rw [EmittedFunction.runFrom_executeIn]
  refine Outcome.resolved_bind ?_ fun _ running hrun => ?_
  · exact resolved_runBlock (fun symbol hmem => hcall symbol (List.mem_eraseDups.mpr hmem)) hclosed.1 hprovides
  · split
    · next operand hoperand =>
      refine Outcome.resolved_bind ?_ fun _ _ _ => Outcome.resolved_ok _
      exact (provides_of_runBlock hrun hprovides).resolved_operand (hclosed.2 operand hoperand)
    · exact Outcome.resolved_ok _

end Emitter

namespace CompiledModule

variable {compiled : CompiledModule}

/-- A module never lacks anything if none of its functions does, unless a
    function of the host does. -/
theorem resolves_call (hfunctions : ∀ function ∈ compiled.program.functions, ∀ call : String → HostFunction,
      (∀ symbol ∈ function.referencedSymbols, HostFunction.Resolves (call symbol)) →
        HostFunction.Resolves (function.invoke call))
    (htable : ∀ symbol function, compiled.symbols.get? symbol = some function → HostFunction.Resolves function)
    (depth : Nat) (symbol : String) : HostFunction.Resolves (compiled.call depth symbol) := by
  induction depth generalizing symbol with
  | zero =>
    rintro args heap _ ⟨⟩
    exact id
  | succ depth ih =>
    intro args heap
    rw [call]
    split
    · next function hfunction =>
      exact hfunctions function (List.mem_of_find?_eq_some hfunction) _ (fun symbol _ => ih symbol) args heap
    · split
      · next function hfunction => exact htable symbol function hfunction args heap
      · exact Outcome.resolved_error id

/-- A compiled module resolves if each of its functions does, given that what
    they call resolves, and if the symbols of the table do. By induction on the
    depth of calls. -/
theorem resolves_invoke (hfunctions : ∀ function ∈ compiled.program.functions, ∀ call : String → HostFunction,
      (∀ symbol ∈ function.referencedSymbols, HostFunction.Resolves (call symbol)) →
        HostFunction.Resolves (function.invoke call))
    (htable : ∀ symbol function, compiled.symbols.get? symbol = some function → HostFunction.Resolves function)
    (depth : Nat) (name : String) : HostFunction.Resolves (compiled.invoke depth name) := by
  intro args heap
  rw [invoke]
  split
  · next function hfunction =>
    have hmem : function ∈ compiled.program.functions := by
      unfold EmittedModule.lookup? at hfunction
      split at hfunction
      · next found hfound =>
        cases hfunction
        exact List.mem_of_find?_eq_some hfound
      · exact List.mem_of_find?_eq_some hfunction
    exact hfunctions function hmem _ (fun symbol _ => resolves_call hfunctions htable depth symbol) args heap
  · exact Outcome.resolved_error id

end CompiledModule

end StagedArrays
