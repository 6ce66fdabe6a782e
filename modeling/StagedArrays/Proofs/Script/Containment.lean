import StagedArrays.Proofs.Script.Resolution
import StagedArrays.Proofs.Script.Windows

namespace StagedArrays

variable {call : String → HostFunction}

/-- A write changes no other element, also if it fails. If it fails it changes
    none at all. -/
theorem HeapM.get?_of_write {heap : Heap} {ref other : HostRef} {index position : Nat} (x : Numeric)
    (h : ¬(other = ref ∧ position = index)) :
    (((write ref index x).runFrom heap).2.get other).get? position = (heap.get other).get? position := by
  cases hset : (heap.get ref).set index x with
  | error cause =>
    simp only [write, Stateful.runFrom_bind, runFrom_read, Stateful.runFrom_liftM, hset]
    rfl
  | ok buffer =>
    rw [runFrom_write hset]
    by_cases hother : other = ref
    · subst hother
      by_cases hlt : other.index < heap.buffers.size
      · rw [Heap.get_put_self heap buffer hlt, HostBuffer.get?_of_set hset, if_neg fun heq => h ⟨rfl, heq⟩]
      · rw [Heap.put, Array.setIfInBounds, dif_neg hlt]
    · rw [Heap.get_put_of_ne heap buffer hother]

/-- To read an operand changes nothing. Its number is that of the register or
    the immediate. -/
theorem RunM.eq_of_operand {operand : Operand} {running after : Running} {x : Numeric}
    (h : (RunM.operand operand).runFrom running = (.ok x, after)) : running.frame.operand operand = .ok x ∧ after = running := by
  rw [runFrom_operand, Prod.mk.injEq] at h
  exact ⟨liftM_error_eq_ok_iff.mp h.1, h.2.symm⟩

namespace Frame

variable {frame : Frame} {facts : Facts}

/-- Assigning a register keeps to what is known if the number does. The other
    registers stay as they are. -/
theorem Satisfies.assign (h : frame.Satisfies facts) {register : RegisterId} {x : Numeric} (hx : facts.about register x) :
    (frame.assign register x).Satisfies facts := by
  intro id y hget
  rw [registers_assign] at hget
  split at hget
  · next heq =>
    cases hget
    rwa [← heq]
  · exact h id y hget

/-- An address in storage is found from a bound buffer, its base and an offset
    that can be read as an index. -/
theorem exists_of_address {buffer : BufferId} {offset : Operand} {ref : HostRef} {index : Nat}
    (h : frame.address buffer offset = .ok (ref, index)) :
    ∃ base x distance, frame.buffers[buffer]? = some (ref, base) ∧ frame.operand offset = .ok x ∧
      x.asIndex = .ok distance ∧ index = base + distance := by
  unfold address at h
  split at h
  · cases h
  · next ref' base hbound =>
    obtain ⟨x, hx, h⟩ := bind_eq_ok_iff.mp h
    obtain ⟨distance, hdistance, h⟩ := bind_eq_ok_iff.mp h
    obtain ⟨sum, hsum, h⟩ := bind_eq_ok_iff.mp h
    cases h
    refine ⟨base, x, distance, hbound, liftM_error_eq_ok_iff.mp hx, liftM_error_eq_ok_iff.mp hdistance, ?_⟩
    exact (Word.add_eq_ok_iff.mp (liftM_fault_eq_ok_iff.mp hsum)).1

/-- Whether an element lies in a buffer of a frame, as long as the buffer is
    declared. -/
def Reaches (frame : Frame) (declared : List BufferDeclaration) (ref : HostRef) (index : Nat) : Prop :=
  ∃ declaration ∈ declared, ∃ base, frame.buffers[declaration.id]? = some (ref, base) ∧ base ≤ index ∧
    index < base + declaration.length

end Frame

/-- How far an execution has come that began in a given frame: its registers are
    as is known, and only elements that the frame reaches have changed. -/
structure Running.Contained (declared : List BufferDeclaration) (facts : Facts) (start running : Running) : Prop where
  satisfies : running.frame.Satisfies facts
  buffers_eq : running.frame.buffers = start.frame.buffers
  get?_eq : ∀ (ref : HostRef) (index : Nat), ¬start.frame.Reaches declared ref index →
    (running.heap.get ref).get? index = (start.heap.get ref).get? index

namespace Running

variable {declared : List BufferDeclaration} {facts : Facts} {start running : Running}

theorem Contained.assign (h : Contained declared facts start running) {register : RegisterId} {x : Numeric}
    (hx : facts.about register x) : Contained declared facts start ⟨running.frame.assign register x, running.heap⟩ :=
  ⟨h.satisfies.assign hx, h.buffers_eq, h.get?_eq⟩

/-- A step that keeps to what is known changes only elements that the frame
    reaches. -/
theorem Contained.run (h : Contained declared facts start running) {instruction : Instruction}
    (hstep : instruction.steps = [instruction]) (hkeeps : instruction.Keeps declared facts running) :
    Contained declared facts start ((instruction.run call).runFrom running).2 := by
  cases instruction with
  | call => exact hkeeps.elim
  | loop induction extent body =>
    have hnil := Instruction.inductions_eq_nil_of_mem_steps (hstep ▸ List.mem_singleton_self _)
    cases hnil
  | binary output op a b =>
    refine Stateful.property_of_bind h fun x _ hx => ?_
    obtain ⟨hx, rfl⟩ := RunM.eq_of_operand hx
    refine Stateful.property_of_bind h fun y _ hy => ?_
    obtain ⟨hy, rfl⟩ := RunM.eq_of_operand hy
    refine Stateful.property_of_bind h fun z _ hz => ?_
    rw [Stateful.runFrom_liftM, Prod.mk.injEq] at hz
    obtain ⟨hz, rfl⟩ := hz
    exact h.assign (hkeeps x y z hx hy (liftM_error_eq_ok_iff.mp hz))
  | load output buffer offset =>
    refine Stateful.property_of_bind h fun ⟨ref, index⟩ _ hplace => ?_
    rw [RunM.runFrom_address, Prod.mk.injEq] at hplace
    obtain ⟨hplace, rfl⟩ := hplace
    refine Stateful.property_of_bind h fun found _ hfound => ?_
    cases hfound
    split
    · next z hz => exact h.assign (hkeeps ref index z hplace hz)
    · exact h
  | store buffer offset value =>
    refine Stateful.property_of_bind h fun ⟨ref, index⟩ _ hplace => ?_
    rw [RunM.runFrom_address, Prod.mk.injEq] at hplace
    obtain ⟨hplace, rfl⟩ := hplace
    refine Stateful.property_of_bind h fun x _ hx => ?_
    obtain ⟨-, rfl⟩ := RunM.eq_of_operand hx
    refine ⟨h.satisfies, h.buffers_eq, fun other position hoff => ?_⟩
    refine (HeapM.get?_of_write x ?_).trans (h.get?_eq other position hoff)
    rintro ⟨rfl, rfl⟩
    obtain ⟨base, place, distance, hbound, hoperand, hdistance, rfl⟩ := Frame.exists_of_address hplace
    obtain ⟨declaration, hmem, rfl, hlt⟩ := hkeeps place distance hoperand hdistance
    rw [h.buffers_eq] at hbound
    exact hoff ⟨declaration, hmem, base, hbound, Nat.le_add_right _ _, Nat.add_lt_add_left hlt base⟩

end Running

/-- Whether an element lies in the window of an argument, which reaches as far
    as the layout of its parameter. -/
def ValueType.Covers (type : ValueType) (arg : HostArgument) (ref : HostRef) (index : Nat) : Prop :=
  ∃ offset size, arg = .buffer ref offset ∧ type.layout.memorySize = .ok size ∧ offset ≤ index ∧ index < offset + size

/-- Only a value that lies in a buffer mentions one. It mentions no other. -/
theorem Value.exists_of_mem_buffers {value : Value} {id : BufferId} (h : id ∈ value.buffers) :
    ∃ place, value.data = .buffer id place := by
  unfold buffers at h
  split at h
  · next found place hdata =>
    cases List.mem_singleton.mp h
    exact ⟨place, hdata⟩
  all_goals cases h

namespace EmittedFunction

variable {function : EmittedFunction} {config : EmitterConfig} {heap : Heap}

/-- A number stands for one buffer only. So its length and type are determined
    by it. -/
theorem WellFormed.eq_of_id_eq (h : function.WellFormed config) {declaration other : BufferDeclaration}
    (hmem : declaration ∈ function.buffers) (hother : other ∈ function.buffers) (heq : declaration.id = other.id) :
    declaration = other := by
  obtain ⟨k, hk⟩ := List.mem_iff_getElem?.mp hmem
  obtain ⟨l, hl⟩ := List.mem_iff_getElem?.mp hother
  have hindex : (⟨k⟩ : BufferId) = ⟨l⟩ := by rw [← h.id_eq k declaration hk, heq, h.id_eq l other hl]
  cases hindex
  exact Option.some.inj (hk.symm.trans hl)

/-- A function is entered without a change to the storage that there is. Its own
    storage is new. -/
theorem get_eq_of_enter (args : List HostArgument) {ref : HostRef} (hlt : ref.index < heap.buffers.size) :
    ((function.enter args).runFrom heap).2.get ref = heap.get ref := by
  cases hrun : (function.enter args).runFrom heap with
  | mk outcome after =>
    cases outcome with
    | ok entered =>
      obtain ⟨-, bound, -, hlocals⟩ := exists_of_enter hrun
      exact (Frame.furnished_of_bindLocals hlocals).get_eq ref hlt
    | error failure =>
      unfold enter at hrun
      by_cases hlength : args.length = function.parameters.length
      · simp only [hlength, ne_eq, not_true, ite_false, Stateful.runFrom_bind, Stateful.runFrom_get,
          Stateful.runFrom_liftM, liftM_self] at hrun
        cases hbind : Frame.bindArguments heap function.name function.bindings function.parameters args {} with
        | error cause =>
          rw [hbind] at hrun
          cases hrun
          rfl
        | ok bound =>
          rw [hbind] at hrun
          obtain ⟨entered, after', hlocals, -⟩ | ⟨after', hlocals, hget⟩ :=
            Frame.furnished_or_full function.buffers bound heap
          · cases hlocals.symm.trans hrun
          · cases hlocals.symm.trans hrun
            exact hget ref hlt
      · simp only [ne_eq, hlength, not_false_eq_true, ite_true] at hrun
        cases hrun
        rfl

end EmittedFunction

namespace Emitter

variable {emitter : Emitter} {function : EmittedFunction} {transcript : Transcript} {heap after : Heap}
  {args : List HostArgument} {entered : Frame}

/-- Parameters are known by values of their layouts. A scalar is known by a
    register. -/
theorem Recorded.forall₂_layout_eq (h : emitter.Recorded function transcript) :
    List.Forall₂ (fun type value => value.layout = type.layout ∨ value.buffers = []) function.parameters
      transcript.parameters := by
  obtain ⟨hstart, -, -, -, -⟩ := h
  next declared parameters builder events f g result operand =>
  have hparameters : (builder.finished (f.append g) operand).parameters = declared.parameters :=
    FunctionBuilder.parameters_start hstart
  rw [hparameters]
  refine (FunctionBuilder.forall₂_of_bindParameters hstart).imp fun type value hvalue => ?_
  rcases hvalue with ⟨-, id, rfl⟩ | ⟨-, id, rfl⟩
  · exact .inr rfl
  · exact .inl rfl

/-- What a function reaches of storage that was there before is in the windows
    of its arguments. -/
theorem Recorded.exists_covers (h : emitter.Recorded function transcript)
    (henter : (function.enter args).runFrom heap = (.ok entered, after)) {ref : HostRef} {index : Nat}
    (hlt : ref.index < heap.buffers.size) (hreaches : entered.Reaches function.buffers ref index) :
    ∃ pair ∈ function.parameters.zip args, pair.1.Covers pair.2 ref index := by
  obtain ⟨declaration, hdeclaration, base, hbound, hle, hend⟩ := hreaches
  obtain ⟨hhanded, hfresh⟩ := h.confined_of_enter henter
  by_cases hmem : declaration.id ∈ transcript.parameters.flatMap Value.buffers
  · obtain ⟨value, hvalue, hid⟩ := List.mem_flatMap.mp hmem
    obtain ⟨pair, hpair, hlayout, hstorage⟩ := exists_mem_zip_of_forall₂ h.forall₂_layout_eq hhanded hvalue
    obtain ⟨ref', offset, harg, hbound'⟩ := hstorage declaration.id hid
    cases hbound.symm.trans hbound'
    refine ⟨pair, hpair, base, declaration.length, harg, ?_, hle, hend⟩
    have hlayout : value.layout = pair.1.layout := hlayout.resolve_right (List.ne_nil_of_mem hid)
    obtain ⟨place, hdata⟩ := Value.exists_of_mem_buffers hid
    obtain ⟨-, found, hfound, hids, hsize⟩ := h.declares value hvalue declaration.id place hdata
    rw [← hlayout, hsize, h.wellFormed.eq_of_id_eq hfound hdeclaration hids]
  · exact absurd (hfresh declaration.id hmem ref base hbound) (Nat.not_le_of_lt hlt)

/-- Wherever the execution of a function comes to, and however it ends, it
    changes only elements that the frame reaches, as long as its instructions
    keep to what is known. -/
theorem Recorded.contained_execute (h : emitter.Recorded function transcript) {facts : Facts} {start : Running}
    (hkeeps : ∀ event ∈ transcript.events, ∀ instruction ∈ event.code, ∀ running, event.InBounds running →
      running.frame.Satisfies facts → instruction.Keeps function.buffers facts running)
    (hloops : ∀ id ∈ blockInductions function.body, ∀ x, facts.about id x)
    (hbounds : ∀ event ∈ transcript.events, ∀ instruction ∈ event.code, ∀ found,
      Visits call function.body start instruction found → event.InBounds found)
    (hstart : Running.Contained function.buffers facts start start) :
    Running.Contained function.buffers facts start ((function.execute call).runFrom start).2 := by
  have hbody : Running.Contained function.buffers facts start ((runBlock call function.body).runFrom start).2 := by
    refine property_runBlock function.body start (fun step found hvisits hstep hfound => ?_) ?_ hstart
    · have hmem := hvisits.mem_blockSteps hstep
      rw [h.blockSteps_eq, Transcript.emitted, List.mem_flatMap] at hmem
      obtain ⟨event, hevent, hcode⟩ := hmem
      refine hfound.run hstep (hkeeps event hevent step hcode found ?_ hfound.satisfies)
      exact hbounds event hevent step hcode found hvisits
    · exact fun id hmem index found hfound => hfound.assign (hloops id hmem _)
  refine Stateful.property_of_bind hbody fun _ after hrun => ?_
  rw [hrun] at hbody
  split
  · exact Stateful.property_of_bind hbody fun x _ hx => (RunM.eq_of_operand hx).2 ▸ hbody
  · exact hbody

end Emitter

namespace Script

/-- A function whose body calls no others, and uses storage as it has been
    handed out to it or seen through layouts that reach no further, changes
    elements only in the windows of its arguments, also if a call ends with an
    error: as long as each coordinate stands for a position below its extent
    wherever the code of an element is executed. -/
theorem windows_of_refitting {α : Type} (script : Script α) (heap : Heap) (id : EmitterId) (module : EmittedModule)
    (final : World Journal)
    (hfinish : (Action.finishModule id).runFrom (script.run.runFrom (.outset heap)).2 = (.ok module, final)) :
    List.Forall₂ (fun function transcript =>
        (∀ event ∈ transcript.events, event.IsPlain) → Refitting transcript.parameters transcript.events →
        ∀ call args heap,
          (∀ entered after, (function.enter args).runFrom heap = (.ok entered, after) →
            ∀ event ∈ transcript.events, ∀ instruction ∈ event.code, ∀ found,
              Visits call function.body ⟨entered, after⟩ instruction found → event.InBounds found) →
          ∀ ref index, ref.index < heap.buffers.size →
            (∀ pair ∈ function.parameters.zip args, ¬pair.1.Covers pair.2 ref index) →
              (((function.invoke call args).runFrom heap).2.get ref).get? index = (heap.get ref).get? index)
      module.functions ((script.run.runFrom (.outset heap)).2.client id).recorded := by
  rw [Action.functions_of_finishModule hfinish]
  refine (World.documented_run script heap id).imp ?_
  rintro function transcript ⟨origin, -, h⟩ hplain hfits call args heap hbounds ref index hlt houtside
  obtain ⟨facts, hkeeps, hloops, hsatisfies⟩ := h.exists_facts hplain hfits
  rw [EmittedFunction.invoke_eq]
  have hget := function.get_eq_of_enter args hlt
  cases henter : (function.enter args).runFrom heap with
  | mk outcome after =>
    rw [henter] at hget
    cases outcome with
    | error failure =>
      rw [Stateful.runFrom_bind_of_error henter, hget]
    | ok entered =>
      have hcontained : Running.Contained function.buffers facts ⟨entered, after⟩ ⟨entered, after⟩ :=
        ⟨hsatisfies args heap entered after henter, rfl, fun _ _ _ => rfl⟩
      have hafter := h.contained_execute hkeeps hloops (hbounds entered after henter) hcontained
      rw [Stateful.runFrom_bind_of_ok henter, EmittedFunction.runFrom_executeIn, ← hget]
      refine hafter.get?_eq ref index fun hreaches => ?_
      obtain ⟨pair, hpair, hcovers⟩ := h.exists_covers henter hlt hreaches
      exact houtside pair hpair hcovers

/-- Stores seven to each element that a loop of an extent comes to. Whether
    these belong to the pair is not checked when it is recorded. -/
def fillTo (extent : Nat) (pair : Value) : Script (Option Value) :=
  forEach (.emitter ⟨0⟩) ⟨[extent], [1]⟩
    (fun coordinates => perform (.emitter ⟨0⟩) (.element pair coordinates) fun
      | .ok (some element) => perform (.emitter ⟨0⟩) (.store element (.constant (.i32 7))) fun _ => done (.ok ())
      | _ => done (.ok ()))
    fun _ => done (.ok none)

/-- Stores seven to the last of three elements that a pair is seen as. Its view
    reaches further than its buffer. -/
def storeThird (pair : Value) : Script (Option Value) :=
  match pair.withLayout ⟨#[]⟩ ⟨[3], [1]⟩ with
  | .ok view => perform (.emitter ⟨0⟩) (.element view [Scalar.ofIndex 2]) <| withValue fun third =>
      perform (.emitter ⟨0⟩) (.store third (.constant (.i32 7))) done
  | .error _ => done (.ok none)

/-- Defines a function with a loop of an extent, and one that sees a pair as
    three elements. -/
def filling (extent : Nat) : Script Unit :=
  newEmitter "m" {} fun id =>
    define id (pairDeclaration "loop") (fun args => fillTo extent (args.headD (.constant (.i32 0)))) fun _ =>
    define id (pairDeclaration "view") (fun args => storeThird (args.headD (.constant (.i32 0)))) done

/-- The world in which both functions are defined. -/
@[irreducible]
def filled (extent : Nat) : World Journal := ((filling extent).run.runFrom (.outset ⟨#[]⟩)).2

/-- The code of the element that the loop comes to. -/
def placeCode : List Instruction := [
  .binary ⟨1⟩ .mul (.register ⟨0⟩) (.constant (.i64 1)),
  .binary ⟨2⟩ .add (.constant (.i64 0)) (.register ⟨1⟩)]

/-- The first function as it is recorded. -/
def fillFunction (extent : Nat) : EmittedFunction :=
  pairFunction "loop" "m_loop" [] [.loop ⟨0⟩ extent (placeCode ++ [.store ⟨0⟩ (.register ⟨2⟩) (.constant (.i32 7))])]

/-- The module of both functions. -/
def filledModule (extent : Nat) : EmittedModule where
  name := "m"
  functions := [fillFunction extent,
    pairFunction "view" "m_view" [] [.store ⟨0⟩ (.constant (.i64 2)) (.constant (.i32 7))]]

/-- What a call of one of them on the two in the middle of four zeros leaves of
    them. -/
def zerosAfter (name : String) : Array Numeric :=
  ((((⟨filledModule 3, .empty⟩ : CompiledModule).invoke 1 name [.buffer ⟨0⟩ 1]).runFrom ⟨#[.zeros .i32 4]⟩).2.get ⟨0⟩).elements

/-- Neither a coordinate that is beyond its extent only when the function is
    called, nor a layout that reaches beyond the parameter, keeps the functions
    from being recorded. The last of the four zeros is overwritten. -/
theorem filled_beyond_windows :
    ((Action.finishModule ⟨0⟩).runFrom (filled 3)).1 = .ok (filledModule 3) ∧
      zerosAfter "loop" = #[.i32 0, .i32 7, .i32 7, .i32 7] ∧ zerosAfter "view" = #[.i32 0, .i32 0, .i32 0, .i32 7] := by
  refine ⟨?_, ?_, ?_⟩
  · decide +kernel
  · cbv
  · cbv

/-- Where the code of the element is executed, the coordinate is below the
    extent of the loop. -/
theorem below_of_visits {extent : Nat} (hextent : Word.Signed extent) {running found : Running} {instruction : Instruction}
    {x : Numeric} (hmem : instruction ∈ placeCode) (hvisits : Visits call (fillFunction extent).body running instruction found)
    (hx : found.frame.registers[(⟨0⟩ : RegisterId)]? = some x) : x.Below extent := by
  have hbelow (index : Nat) (hlt : index < extent) (frame : Frame)
      (hget : (frame.assign ⟨0⟩ (.ofIndex index)).registers[(⟨0⟩ : RegisterId)]? = some x) : x.Below extent := by
    rw [Frame.registers_assign, if_pos rfl] at hget
    cases hget
    exact ⟨index, Numeric.asIndex_ofIndex (hextent.mono (Nat.le_of_lt hlt)), hlt⟩
  cases hvisits with
  | head => simp [placeCode] at hmem
  | tail _ hrest => cases hrest
  | @inside _ _ index _ _ _ _ next _ hlt _ hvisits =>
    cases hvisits with
    | head => exact hbelow index hlt next.frame hx
    | tail hrun hvisits =>
      obtain ⟨y, _, hy, hrun⟩ := Stateful.runFrom_bind_eq_ok.mp hrun
      obtain ⟨-, rfl⟩ := RunM.eq_of_operand hy
      obtain ⟨z, _, hz, hrun⟩ := Stateful.runFrom_bind_eq_ok.mp hrun
      obtain ⟨-, rfl⟩ := RunM.eq_of_operand hz
      obtain ⟨product, _, hproduct, hrun⟩ := Stateful.runFrom_bind_eq_ok.mp hrun
      rw [Stateful.runFrom_liftM, Prod.mk.injEq] at hproduct
      obtain ⟨-, rfl⟩ := hproduct
      cases hrun
      cases hvisits with
      | head =>
        rw [Frame.registers_assign, if_neg (by decide)] at hx
        exact hbelow index hlt next.frame hx
      | tail _ hvisits =>
        cases hvisits with
        | head => simp [placeCode] at hmem
        | tail _ hrest => cases hrest

/-- A loop that stays within the pair leaves the zeros around it alone. The pair
    is part of a larger buffer. -/
theorem windows_of_refitting_filled : ∃ final,
    (Action.finishModule ⟨0⟩).runFrom (filled 2) = (.ok (filledModule 2), final) ∧
      ∀ call, ((((fillFunction 2).invoke call [.buffer ⟨0⟩ 1]).runFrom ⟨#[.zeros .i32 4]⟩).2.get ⟨0⟩).get? 3 = some (.i32 0) := by
  have hmodule : ((Action.finishModule ⟨0⟩).runFrom (filled 2)).1 = .ok (filledModule 2) := by decide +kernel
  have hfinish : (Action.finishModule ⟨0⟩).runFrom (filled 2) = (.ok (filledModule 2), _) :=
    Prod.ext_iff.mpr ⟨hmodule, rfl⟩
  have hfits : ∀ transcript ∈ ((filled 2).client ⟨0⟩).recorded.head?, (∀ event ∈ transcript.events, event.IsPlain) ∧
      Refitting transcript.parameters transcript.events := by decide +kernel
  have hevents : ((filled 2).client ⟨0⟩).recorded.head?.map (·.events.map fun event => (event.coordinates, event.code)) =
      some [([], []), ([(2, .register .i64 ⟨0⟩)], placeCode), ([], [.store ⟨0⟩ (.register ⟨2⟩) (.constant (.i32 7))]),
        ([], []), ([], [])] := by decide +kernel
  refine ⟨_, hfinish, fun call => ?_⟩
  rw [filled] at hfinish hfits hevents
  have hwindows := windows_of_refitting (filling 2) ⟨#[]⟩ ⟨0⟩ _ _ hfinish
  obtain ⟨transcript, hhead, hevents⟩ := Option.map_eq_some_iff.mp hevents
  obtain ⟨hplain, hfits⟩ := hfits transcript hhead
  obtain ⟨rest, hrecorded⟩ := List.head?_eq_some_iff.mp hhead
  rw [hrecorded] at hwindows
  refine ((List.forall₂_cons.mp hwindows).1 hplain hfits call [.buffer ⟨0⟩ 1] ⟨#[.zeros .i32 4]⟩ ?_ ⟨0⟩ 3 (by decide) ?_).trans ?_
  · intro entered after _ event hevent instruction hmem found hvisits pair hpair x hx
    have hcase := List.mem_map_of_mem (f := fun event : EmitterEvent => (event.coordinates, event.code)) hevent
    rw [hevents] at hcase
    simp only [List.mem_cons, List.not_mem_nil, or_false, Prod.mk.injEq] at hcase
    rcases hcase with ⟨hnil, -⟩ | ⟨hplace, hcode⟩ | ⟨hnil, -⟩ | ⟨hnil, -⟩ | ⟨hnil, -⟩
    case inr.inl =>
      rw [hplace] at hpair
      cases List.mem_singleton.mp hpair
      exact below_of_visits (Word.signed_iff.mpr (by decide)) (hcode ▸ hmem) hvisits hx
    all_goals
      rw [hnil] at hpair
      cases hpair
  · rintro pair hpair ⟨offset, size, harg, hsize, -, hlt⟩
    cases List.mem_singleton.mp hpair
    cases harg
    cases hsize
    exact absurd hlt (by decide)
  · rfl

end Script

end StagedArrays
