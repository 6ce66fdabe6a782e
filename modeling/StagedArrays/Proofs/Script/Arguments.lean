import Mathlib
import StagedArrays.Code.Decidable
import StagedArrays.Proofs.Script.Handover

namespace StagedArrays

open Stateful (Moves)

namespace Frame

/-- The element of storage that a value denotes at given coordinates, if it
    denotes storage. -/
def place? (frame : Frame) (value : Value) (coordinates : List Nat) : Option (HostRef × Nat) :=
  match value.data with
  | .buffer id offset => do
    let (ref, start) ← (frame.address id offset).toOption
    let shift ← (value.layout.offset coordinates).toOption
    return (ref, start + shift)
  | .constant _ | .host .. | .register _ => none

variable {frame : Frame} {heap : Heap} {id : BufferId} {offset : Operand} {ref : HostRef} {index : Nat}

/-- An address is so many elements after where the storage of a buffer
    begins. -/
theorem address_eq_ok_iff : frame.address id offset = .ok (ref, index) ↔
    ∃ base x distance, frame.buffers[id]? = some (ref, base) ∧ frame.operand offset = .ok x ∧
      x.asIndex = .ok distance ∧ base + distance = index ∧ index < Word.bound := by
  unfold address
  cases hbound : frame.buffers[id]? with
  | none => simp
  | some place =>
    obtain ⟨found, base⟩ := place
    constructor
    · intro h
      obtain ⟨x, hx, h⟩ := bind_eq_ok_iff.mp h
      obtain ⟨distance, hdistance, h⟩ := bind_eq_ok_iff.mp h
      obtain ⟨sum, hsum, h⟩ := bind_eq_ok_iff.mp h
      cases h
      obtain ⟨hsum, hlt⟩ := Word.add_eq_ok_iff.mp (liftM_fault_eq_ok_iff.mp hsum)
      exact ⟨base, x, distance, rfl, liftM_error_eq_ok_iff.mp hx, liftM_error_eq_ok_iff.mp hdistance, hsum.symm, hlt⟩
    · rintro ⟨_, x, distance, heq, hx, hdistance, rfl, hlt⟩
      cases heq
      have hadd : Word.add base distance = .ok (base + distance) := Word.add_eq_ok_iff.mpr ⟨rfl, hlt⟩
      simp only [hx, liftM_error_ok, ok_bind, hdistance, hadd, liftM_fault_ok]
      rfl

/-- A pointer denotes the storage that is taken in for it, from the offset
    on. -/
theorem Takes.exists_place?_eq {dtype : DType} {layout : Layout} {arg : HostArgument} {coordinates : List Nat}
    (h : Takes heap frame (.emittedBuffer dtype layout id) arg) (hin : Layout.InBounds coordinates layout.extents) :
    ∃ ref start, arg = .buffer ref start ∧ layout.offset coordinates = .ok (layout.place coordinates) ∧
      frame.place? (.emittedBuffer dtype layout id) coordinates = some (ref, start + layout.place coordinates) := by
  obtain ⟨ref, start, size, rfl, hbound, hsize, hlt, -⟩ := h.exists_of_buffer
  have hoffset := Layout.offset_of_inBounds hsize hin
  have haddress : frame.address id (.constant (.ofIndex 0)) = .ok (ref, start) :=
    address_eq_ok_iff.mpr ⟨start, .ofIndex 0, 0, hbound, rfl, by decide, rfl, by omega⟩
  exact ⟨ref, start, rfl, hoffset, by simp [place?, Value.emittedBuffer, haddress, hoffset, Except.toOption]⟩

end Frame

namespace Emit

/-- What a recorded call hands over for a value is its storage as it is, or an
    immediate. -/
def Hands (value : Value) (argument : CallArgument) : Prop :=
  match value.data with
  | .buffer id offset => argument = .buffer id offset
  | .constant _ | .register _ => ∃ operand, argument = .scalar operand
  | .host .. => False

variable {emitter : Emitter} {builder : FunctionBuilder}

/-- Passing a value to a call records at most the loading of a scalar, and the
    argument hands this value over. -/
theorem adds_callArgument (value : Value) : emitter.Adds builder (callArgument value) fun outcome _ =>
    ∀ argument, outcome = .ok argument → Hands value argument := by
  have hscalar (hdata : ∀ operand, Hands value (.scalar operand)) : emitter.Adds builder
      (do return CallArgument.scalar (← operand value)) fun outcome _ =>
        ∀ argument, outcome = .ok argument → Hands value argument := by
    refine .map ((Emitter.Adds.of_moves (grows_operand value)).mono fun outcome f _ argument heq => ?_)
    cases outcome with
    | error failure => cases heq
    | ok operand =>
      cases heq
      exact hdata operand
  unfold callArgument
  split
  · next id offset hdata =>
    refine .pure ?_
    rintro _ ⟨⟩
    rw [Hands, hdata]
  · next x hdata => exact hscalar fun operand => by rw [Hands, hdata]; exact ⟨operand, rfl⟩
  · next id hdata => exact hscalar fun operand => by rw [Hands, hdata]; exact ⟨operand, rfl⟩
  · refine .fail ?_
    rintro _ ⟨⟩

/-- Arguments are recorded one after the other, each handing over the value at
    its position. -/
theorem adds_callArguments (values : List Value) : emitter.Adds builder (callArguments values) fun outcome _ =>
    ∀ arguments, outcome = .ok arguments → List.Forall₂ Hands values arguments := by
  induction values generalizing builder with
  | nil =>
    refine .pure ?_
    rintro _ ⟨⟩
    exact .nil
  | cons value values ih =>
    refine .bind (adds_callArgument value) (fun _ _ _ _ heq => nomatch heq) fun argument f hargument => ?_
    refine .map (ih.mono fun outcome g hrest arguments heq => ?_)
    cases outcome with
    | error failure => cases heq
    | ok rest =>
      cases heq
      exact .cons (hargument argument rfl) (hrest rest rfl)

/-- The last instruction that is recorded for a call is the call. The ones
    before it load the arguments. -/
theorem adds_call (function : FunctionDeclaration) (args : List Value) : emitter.Adds builder (call function args)
    fun outcome f => ∀ result, outcome = .ok result → ∃ loads arguments output,
      f.code = loads ++ [.call (function.symbol emitter.moduleName) arguments output] ∧
        List.Forall₂ Hands args arguments := by
  unfold call
  refine .get_bind (.bind (adds_callArguments args) (fun _ _ _ _ heq => nomatch heq) fun arguments f harguments => ?_)
  have hhands := harguments arguments rfl
  cases function.returnType with
  | some type =>
    refine .emitWithOutput_bind (.pure fun result _ =>
      ⟨f.code, arguments, some ⟨(builder.extend f).nextRegister⟩, ?_, hhands⟩)
    rw [Fragment.append_empty]
    rfl
  | none =>
    refine .builder_bind (.setBuilder_emit_bind (.pure fun result _ => ⟨f.code, arguments, none, ?_, hhands⟩))
    rw [Fragment.append_empty]
    rfl

end Emit

namespace RunM

/-- What a call hands over is found out without a change. Each argument is
    looked up in the frame. -/
theorem forall₂_of_arguments {running after : Running} {arguments : List CallArgument} {args : List HostArgument}
    (h : (RunM.arguments arguments).runFrom running = (.ok args, after)) :
    after = running ∧ List.Forall₂ (fun argument arg => running.frame.argument argument = .ok arg) arguments args := by
  induction arguments generalizing args after with
  | nil =>
    cases h
    exact ⟨rfl, .nil⟩
  | cons argument arguments ih =>
    obtain ⟨_, _, hframe, hargument⟩ := Stateful.runFrom_bind_eq_ok.mp h
    cases hframe
    obtain ⟨first, _, hfirst, hmore⟩ := Stateful.runFrom_bind_eq_ok.mp hargument
    rw [Stateful.runFrom_liftM, Prod.mk.injEq] at hfirst
    obtain ⟨hfirst, rfl⟩ := hfirst
    obtain ⟨rest, _, hrest, hdone⟩ := Stateful.runFrom_bind_eq_ok.mp hmore
    obtain ⟨rfl, harguments⟩ := ih hrest
    cases hdone
    exact ⟨rfl, .cons hfirst harguments⟩

end RunM

namespace ValueType

/-- A value that is accepted for a parameter is of its level, and has its
    extents. -/
theorem of_check {type : ValueType} {value : Value} {u : Unit} (h : type.check value = .ok u) :
    value.pointerLevel = type.pointerLevel ∧ type.layout.extents = value.layout.extents := by
  unfold check at h
  obtain ⟨_, -, h⟩ := bind_eq_ok_iff.mp h
  by_cases hlevel : value.pointerLevel = type.pointerLevel
  · by_cases hextents : type.layout.extents = value.layout.extents
    · exact ⟨hlevel, hextents⟩
    · simp only [hlevel, hextents, ne_eq, not_true, not_false_eq_true, ite_false, ite_true] at h
      obtain ⟨_, -, h⟩ := bind_eq_ok_iff.mp h
      obtain ⟨_, -, h⟩ := bind_eq_ok_iff.mp h
      cases h
  · simp only [hlevel, ne_eq, not_false_eq_true, ite_true] at h
    cases h

end ValueType

namespace FunctionDeclaration

/-- Arguments that have passed the check fit the parameters one by one. There
    are as many of them as parameters. -/
theorem forall₂_of_checkEach {types : List ValueType} {args : List Value} {u : Unit}
    (hlength : args.length = types.length) (h : checkEach types args = .ok u) :
    List.Forall₂ (fun type arg => type.check arg = .ok ()) types args := by
  induction types generalizing args with
  | nil =>
    rw [List.length_nil, List.length_eq_zero_iff] at hlength
    subst hlength
    exact .nil
  | cons type types ih =>
    cases args with
    | nil => cases hlength
    | cons arg args =>
      obtain ⟨_, hcheck, h⟩ := bind_eq_ok_iff.mp h
      exact .cons hcheck (ih (Nat.succ_inj.mp hlength) h)

/-- Arguments are accepted if each is accepted for its parameter. Their number
    is compared first. -/
theorem forall₂_of_checkArguments {function : FunctionDeclaration} {args : List Value} {u : Unit}
    (h : function.checkArguments args = .ok u) :
    List.Forall₂ (fun type arg => type.check arg = .ok ()) function.parameters args := by
  unfold checkArguments at h
  by_cases hlength : args.length = function.parameters.length
  · simp only [hlength, ne_eq, not_true, ite_false] at h
    exact forall₂_of_checkEach hlength h
  · simp only [ne_eq, hlength, not_false_eq_true, ite_true] at h
    cases h

end FunctionDeclaration

namespace Frame

/-- A pointer denotes what the argument does wherever their layouts lead to the
    same distance. -/
theorem place?_eq_iff {frame entered : Frame} {heap : Heap} {type : ValueType} {parameter arg : Value}
    {argument : CallArgument} {handed : HostArgument} {coordinates : List Nat}
    (hparameter : (type.pointerLevel = 0 ∧ ∃ id, parameter = .register type.dtype id) ∨
      type.pointerLevel ≠ 0 ∧ ∃ id, parameter = .emittedBuffer type.dtype type.layout id)
    (hcheck : type.check arg = .ok ()) (hhands : Emit.Hands arg argument)
    (hargument : frame.argument argument = .ok handed) (htakes : Takes heap entered parameter handed)
    (haddressable : parameter.isAddressable = true) (hin : Layout.InBounds coordinates parameter.layout.extents) :
    (entered.place? parameter coordinates).isSome = true ∧
      (frame.place? arg coordinates = entered.place? parameter coordinates ↔
        arg.layout.offset coordinates = parameter.layout.offset coordinates) := by
  rcases hparameter with ⟨-, id, rfl⟩ | ⟨hlevel, id, rfl⟩
  · cases haddressable
  · have harg : arg.isAddressable = true := by
      by_contra hnot
      rw [← (ValueType.of_check hcheck).1, Value.pointerLevel, if_neg hnot] at hlevel
      exact hlevel rfl
    obtain ⟨source, offset, hdata⟩ : ∃ source offset, arg.data = .buffer source offset := by
      unfold Value.isAddressable at harg
      unfold Emit.Hands at hhands
      split at harg
      · simp_all
      · exact ⟨_, _, ‹_›⟩
      · cases harg
      · cases harg
    rw [Emit.Hands, hdata] at hhands
    subst hhands
    obtain ⟨⟨ref, index⟩, haddress, hhanded⟩ := bind_eq_ok_iff.mp hargument
    cases hhanded
    obtain ⟨_, _, heq, hoffset, hplace⟩ := htakes.exists_place?_eq hin
    cases heq
    rw [hplace]
    refine ⟨rfl, ?_⟩
    change _ ↔ arg.layout.offset coordinates = type.layout.offset coordinates
    rw [hoffset]
    simp only [place?, hdata, haddress]
    cases arg.layout.offset coordinates with
    | error failure => simp [Except.toOption]
    | ok shift => simp [Except.toOption]

end Frame

/-- What parameters are known by in the body has the declared types. This
    includes the layouts, with their increments. -/
theorem Emitter.Recorded.forall₂_parameters {emitter : Emitter} {function : EmittedFunction} {transcript : Transcript}
    (h : emitter.Recorded function transcript) :
    List.Forall₂ (fun type value => (type.pointerLevel = 0 ∧ ∃ id, value = .register type.dtype id) ∨
      type.pointerLevel ≠ 0 ∧ ∃ id, value = .emittedBuffer type.dtype type.layout id)
      transcript.declared.parameters transcript.parameters := by
  obtain ⟨hstart, -, -, -, -⟩ := h
  exact FunctionBuilder.forall₂_of_bindParameters hstart

/-- What is recorded for a call that a body makes ends with the call. It stands
    somewhere in the code of the function. -/
theorem Emitter.Recorded.exists_of_call {emitter : Emitter} {function : EmittedFunction} {transcript : Transcript}
    {declaration : FunctionDeclaration} {args : List Value} {result : Option Value} {code : List Instruction}
    (h : emitter.Recorded function transcript)
    (hmem : .performed (.call declaration args) (.ok result) code ∈ transcript.events) :
    ∃ loads arguments output, code = loads ++ [.call (declaration.symbol emitter.moduleName) arguments output] ∧
      List.Forall₂ Emit.Hands args arguments := by
  obtain ⟨hstart, hbody, -, -, -⟩ := h
  rw [List.mem_append] at hmem
  rcases hmem with hmem | hmem
  · have hblocks := FunctionBuilder.blocks_start hstart
    obtain ⟨current, g, hopen, rfl, hrun⟩ := hbody.exists_of_performed (by simp [hblocks]) hmem
    exact (Emit.adds_call declaration args).of_runFrom hopen hrun result rfl
  · cases List.mem_singleton.mp hmem

namespace Script

/-- When a function that a program has defined is called by another one, and
    arguments are accepted for its parameters, the call enters the function with
    a frame in which each pointer denotes, at coordinates of its layout, the
    element that the argument denotes in the frame of the caller, exactly if the
    layouts lead these coordinates to the same distance. -/
theorem parameters_denote_arguments {α : Type} (script : Script α) (heap : Heap) (id : EmitterId) (module : EmittedModule)
    (final : World Journal)
    (hfinish : (Action.finishModule id).runFrom (script.run.runFrom (.outset heap)).2 = (.ok module, final))
    (caller : Transcript) (hcaller : caller ∈ ((script.run.runFrom (.outset heap)).2.client id).recorded)
    (declaration : FunctionDeclaration) (args : List Value) (result : Option Value) (code : List Instruction)
    (hcall : .performed (.call declaration args) (.ok result) code ∈ caller.events)
    (haccepted : declaration.checkArguments args = .ok ())
    (k : Nat) (callee : EmittedFunction) (notes : Transcript) (hcallee : module.functions[k]? = some callee)
    (hnotes : ((script.run.runFrom (.outset heap)).2.client id).recorded[k]? = some notes)
    (hdeclared : notes.declared.parameters = declaration.parameters) :
    ∃ loads symbol arguments output, code = loads ++ [.call symbol arguments output] ∧
      ∀ (table : SymbolTable) (compiled : CompiledModule), module.compile table = .ok compiled →
        module.bySymbol? symbol = some callee → ∀ depth,
          (Instruction.call symbol arguments output).run (compiled.call (depth + 1)) = (do
              let handed ← RunM.arguments arguments
              let entered ← RunM.onHeap (callee.enter handed)
              let result ← RunM.onHeap (callee.executeIn (compiled.call depth) entered)
              RunM.keep symbol result output) ∧
            ∀ (frame entered : Frame) (heap after : Heap) (running : Running) (handed : List HostArgument),
              (RunM.arguments arguments).runFrom ⟨frame, heap⟩ = (.ok handed, running) →
              (callee.enter handed).runFrom heap = (.ok entered, after) →
                List.Forall₂ (fun parameter arg => parameter.isAddressable = true →
                    ∀ coordinates, Layout.InBounds coordinates parameter.layout.extents →
                      (entered.place? parameter coordinates).isSome = true ∧
                        (frame.place? arg coordinates = entered.place? parameter coordinates ↔
                          arg.layout.offset coordinates = parameter.layout.offset coordinates))
                  notes.parameters args := by
  have hdocumented := World.documented_run script heap id
  rw [Action.functions_of_finishModule hfinish] at hcallee
  obtain ⟨function, origin, hcaller⟩ := hdocumented.exists_of_mem hcaller
  obtain ⟨origin', -, hcallee⟩ := hdocumented.exists_recorded hcallee hnotes
  obtain ⟨loads, arguments, output, rfl, hhands⟩ := hcaller.exists_of_call hcall
  refine ⟨loads, _, arguments, output, rfl, fun table compiled hcompile hsymbol depth =>
    ⟨EmittedFunction.run_call hcompile hsymbol arguments output depth, ?_⟩⟩
  intro frame entered heap after running handed harguments henter
  have htakes := hcallee.forall₂_takes henter
  have hparameters := hcallee.forall₂_parameters
  obtain ⟨-, hhanded⟩ := RunM.forall₂_of_arguments harguments
  have hchecks := FunctionDeclaration.forall₂_of_checkArguments haccepted
  rw [hdeclared] at hparameters
  have hlength := hparameters.length_eq
  have hargs := hchecks.length_eq
  have harguments := hhands.length_eq
  have hhanded' := hhanded.length_eq
  refine List.forall₂_iff_get.mpr ⟨by omega, fun k hlt hlt' haddressable coordinates hin => ?_⟩
  exact Frame.place?_eq_iff (hparameters.get (by omega) hlt) (hchecks.get (by omega) hlt')
    (hhands.get hlt' (by omega)) (hhanded.get (by omega) (by omega)) (htakes.get hlt (by omega)) haddressable hin

/-- A function that overwrites the second element of its argument. Where that is
    depends on the increments that it was declared with. -/
def overwriting (increments : List Nat) : FunctionDeclaration where
  name := "f"
  parameters := [.pointer .i32 ⟨[2], increments⟩]

/-- A function of every second element of three. -/
def spaced : FunctionDeclaration where
  name := "g"
  parameters := [.pointer .i32 ⟨[2], [2]⟩]

/-- Defines both functions, and lets the second one call the first one with its
    parameter. -/
def passing (increments : List Nat) : Script Unit :=
  newEmitter "m" {} fun id =>
    define id (overwriting increments)
      (fun
        | [parameter] => perform (.emitter id) (.element parameter [Scalar.ofIndex 1]) fun
          | .ok (some element) => perform (.emitter id) (.store element (.constant (.i32 7))) done
          | outcome => done outcome
        | _ => done (.ok none))
      fun _ => define id spaced (fun args => perform (.emitter id) (.call (overwriting increments) args) done) done

/-- The world in which both functions are defined. -/
@[irreducible]
def passed (increments : List Nat) : World Journal := ((passing increments).run.runFrom (.outset ⟨#[]⟩)).2

/-- The first function as it is recorded, with the size and the second place of
    its argument. -/
def overwritten (increments : List Nat) (size : Nat) (place : Int64) : EmittedFunction where
  name := "f"
  symbol := "m_f"
  parameters := (overwriting increments).parameters
  bindings := [.buffer ⟨0⟩]
  returnType := none
  buffers := [⟨⟨0⟩, .i32, size, .parameter 0⟩]
  body := [.store ⟨0⟩ (.constant (.i64 place)) (.constant (.i32 7))]
  result := none

/-- The module of both functions. -/
def passedModule (increments : List Nat) (size : Nat) (place : Int64) : EmittedModule where
  name := "m"
  functions := [overwritten increments size place, {
    name := "g"
    symbol := "m_g"
    parameters := spaced.parameters
    bindings := [.buffer ⟨0⟩]
    returnType := none
    buffers := [⟨⟨0⟩, .i32, 3, .parameter 0⟩]
    body := [.call "m_f" [.buffer ⟨0⟩ (.constant (.i64 0))] none]
    result := none }]

/-- Three zeros, and a frame in which the parameter of the second function is
    bound to them. -/
def spacedRunning : Running := ⟨({} : Frame).bind ⟨0⟩ ⟨0⟩ 0, ⟨#[.zeros .i32 3]⟩⟩

/-- What the parameter of either function is known by. It covers a buffer of its
    own from the start. -/
def vector (increments : List Nat) : Value := .emittedBuffer .i32 ⟨[2], increments⟩ ⟨0⟩

/-- A vector of other increments is accepted, but the function sees, and
    overwrites, the element in between. -/
theorem overwriting_displaced :
    ((Action.finishModule ⟨0⟩).runFrom (passed [1])).1 = .ok (passedModule [1] 2 1) ∧
      (overwriting [1]).checkArguments [vector [2]] = .ok () ∧
      (((overwritten [1] 2 1).enter [.buffer ⟨0⟩ 0]).runFrom spacedRunning.heap).1.toOption.bind
        (·.place? (vector [1]) [1]) = some (⟨0⟩, 1) ∧
      spacedRunning.frame.place? (vector [2]) [1] = some (⟨0⟩, 2) ∧
      ((((⟨passedModule [1] 2 1, .empty⟩ : CompiledModule).invoke 2 "g" [.buffer ⟨0⟩ 0]).runFrom
        spacedRunning.heap).2.get ⟨0⟩).elements = #[.i32 0, .i32 7, .i32 0] := by
  refine ⟨?_, ?_, ?_, ?_, ?_⟩
  · decide +kernel
  · decide +kernel
  · cbv
  · cbv
  · cbv

/-- What a recorded call is about: the parameters, the arguments, and what is
    recorded. -/
def callOf? : EmitterEvent → Option (List ValueType × List Value × List Instruction)
  | .performed (.call declaration args) (.ok _) code => some (declaration.parameters, args, code)
  | _ => none

/-- An event that is read as a call is a call that was performed and gave a
    result. -/
theorem exists_of_callOf? {event : EmitterEvent} {parameters : List ValueType} {args : List Value}
    {code : List Instruction} (h : callOf? event = some (parameters, args, code)) :
    ∃ declaration result, declaration.parameters = parameters ∧
      event = .performed (.call declaration args) (.ok result) code := by
  unfold callOf? at h
  split at h
  · cases h
    exact ⟨_, _, rfl, rfl⟩
  · cases h

/-- A vector of the same increments is seen as it is. A vector of others is
    accepted too, and is seen by those of the parameter. -/
theorem parameters_denote_arguments_passing : ∃ final entered after,
    (Action.finishModule ⟨0⟩).runFrom (passed [2]) = (.ok (passedModule [2] 3 2), final) ∧
      ((overwritten [2] 3 2).enter [.buffer ⟨0⟩ 0]).runFrom spacedRunning.heap = (.ok entered, after) ∧
      spacedRunning.frame.place? (vector [2]) [1] = entered.place? (vector [2]) [1] := by
  have hmodule : ((Action.finishModule ⟨0⟩).runFrom (passed [2])).1 = .ok (passedModule [2] 3 2) := by decide +kernel
  obtain ⟨entered, after, henter⟩ : ∃ entered after,
      ((overwritten [2] 3 2).enter [.buffer ⟨0⟩ 0]).runFrom spacedRunning.heap = (.ok entered, after) := by
    have hok : (((overwritten [2] 3 2).enter [.buffer ⟨0⟩ 0]).runFrom spacedRunning.heap).1.toOption.isSome = true := by
      cbv
    cases hrun : ((overwritten [2] 3 2).enter [.buffer ⟨0⟩ 0]).runFrom spacedRunning.heap with
    | mk outcome after =>
      rw [hrun] at hok
      cases outcome with
      | error failure => cases hok
      | ok entered => exact ⟨entered, after, rfl⟩
  have hparameters : ((passed [2]).client ⟨0⟩).recorded.map (fun notes => (notes.declared.parameters, notes.parameters)) =
      [((overwriting [2]).parameters, [vector [2]]), (spaced.parameters, [vector [2]])] := by decide +kernel
  have hcalls : ((passed [2]).client ⟨0⟩).recorded.map (fun notes => notes.events.filterMap callOf?) =
      [[], [((overwriting [2]).parameters, [vector [2]], [.call "m_f" [.buffer ⟨0⟩ (.constant (.i64 0))] none])]] := by
    decide +kernel
  obtain ⟨callee, caller, hrecorded⟩ := List.length_eq_two.mp (by simpa using congrArg List.length hparameters)
  rw [hrecorded] at hparameters hcalls
  simp only [List.map_cons, List.map_nil, List.cons.injEq, and_true, Prod.mk.injEq] at hparameters hcalls
  obtain ⟨⟨hdeclared, hvalues⟩, -, -⟩ := hparameters
  have hmem := List.mem_singleton_self
    ((overwriting [2]).parameters, [vector [2]], [Instruction.call "m_f" [.buffer ⟨0⟩ (.constant (.i64 0))] none])
  rw [← hcalls.2] at hmem
  obtain ⟨event, hevent, hcall⟩ := List.mem_filterMap.mp hmem
  obtain ⟨declaration, result, hdeclaration, rfl⟩ := exists_of_callOf? hcall
  have haccepted : declaration.checkArguments [vector [2]] = .ok () := by
    unfold FunctionDeclaration.checkArguments
    rw [hdeclaration]
    rfl
  have hcaller : caller ∈ ((passed [2]).client ⟨0⟩).recorded := by simp [hrecorded]
  have hcallee : ((passed [2]).client ⟨0⟩).recorded[0]? = some callee := by simp [hrecorded]
  have hpassed : (Action.finishModule ⟨0⟩).runFrom (passed [2]) = (.ok (passedModule [2] 3 2), _) :=
    Prod.ext_iff.mpr ⟨hmodule, rfl⟩
  have hfinish := hpassed
  rw [passed] at hfinish hcaller hcallee
  obtain ⟨loads, symbol, arguments, output, hcode, hrun⟩ := parameters_denote_arguments (passing [2]) ⟨#[]⟩ ⟨0⟩ _ _ hfinish caller
    hcaller declaration _ result _ hevent haccepted 0 (overwritten [2] 3 2) callee rfl hcallee
    (hdeclared.trans hdeclaration.symm)
  cases loads with
  | cons instruction loads => simp at hcode
  | nil =>
    simp only [List.nil_append, List.cons.injEq, Instruction.call.injEq, and_true] at hcode
    obtain ⟨rfl, rfl, rfl⟩ := hcode
    have harguments : (RunM.arguments [.buffer ⟨0⟩ (.constant (.i64 0))]).runFrom spacedRunning =
        (.ok [.buffer ⟨0⟩ 0], spacedRunning) := by cbv
    have hcompile : (passedModule [2] 3 2).compile .empty = .ok ⟨passedModule [2] 3 2, .empty⟩ := by cbv
    obtain ⟨-, hplaces⟩ := hrun .empty _ hcompile (by decide +kernel) 0
    have hplaces := hplaces spacedRunning.frame entered spacedRunning.heap after spacedRunning [.buffer ⟨0⟩ 0]
      harguments henter
    rw [hvalues] at hplaces
    obtain ⟨hplace, -⟩ := List.forall₂_cons.mp hplaces
    obtain ⟨-, hplace⟩ := hplace rfl [1] (.cons (by decide) .nil)
    exact ⟨_, entered, after, hpassed, henter, hplace.mpr rfl⟩

end Script

end StagedArrays
