import StagedArrays.Proofs.Emission.Recorded
import StagedArrays.Proofs.Emission.Room

namespace StagedArrays

namespace Program

/-- There is one argument for each input, since every input has storage of the
    host behind it. -/
theorem length_arguments {heap : Heap} {inputs : List Value} (h : ∀ input ∈ inputs, Input heap input) :
    (arguments inputs).length = inputs.length := by
  induction inputs with
  | nil => rfl
  | cons input inputs ih =>
    obtain ⟨ref, offset, hinput⟩ := h input List.mem_cons_self
    have hhost : input.host? = some (ref, offset) := by rw [Value.host?, hinput.data_eq]
    have hrest := ih fun input hmem => h input (List.mem_cons_of_mem _ hmem)
    rw [arguments, List.filterMap_cons, hhost]
    simpa [arguments] using hrest

end Program

namespace EmittedFunction

/-- Calling a function whose arguments and buffers are bound runs its body, and
    then reads its result. -/
theorem runFrom_invoke {call : String → HostFunction} {function : EmittedFunction} {args : List HostArgument}
    {heap : Heap} {bound : Frame} {running : Running} (hlength : args.length = function.parameters.length)
    (hbind : Frame.bindArguments heap function.name function.bindings function.parameters args {} = .ok bound)
    (hlocals : (Frame.bindLocals function.buffers bound).runFrom heap = (.ok running.frame, running.heap)) :
    (function.invoke call args).runFrom heap =
      let body : RunM (Option Numeric) := do
        runBlock call function.body
        match function.result with
        | some operand => return some (← RunM.operand operand)
        | none => return none
      ((body.runFrom running).1, (body.runFrom running).2.heap) := by
  unfold invoke
  simp only [hlength, ne_eq, not_true, ite_false, Stateful.runFrom_bind, Stateful.runFrom_get,
    Stateful.runFrom_liftM, liftM_self, hbind, hlocals]
  rfl

/-- Calling a function one of whose own buffers has no room ends before its body
    begins. -/
theorem fst_invoke_of_full {call : String → HostFunction} {function : EmittedFunction} {args : List HostArgument}
    {heap : Heap} {bound : Frame} (hlength : args.length = function.parameters.length)
    (hbind : Frame.bindArguments heap function.name function.bindings function.parameters args {} = .ok bound)
    {declaration : BufferDeclaration} (hmem : declaration ∈ function.buffers) (hlocal : declaration.isLocal = true)
    (hfull : declaration.dtype.reserve declaration.length ≠ .ok ()) :
    ((function.invoke call args).runFrom heap).1 = .error (.fault .capacityOverflow) := by
  have hlocals := Frame.runFrom_bindLocals_of_mem hmem hlocal hfull bound heap
  unfold invoke
  simp only [hlength, ne_eq, not_true, ite_false, Stateful.runFrom_bind, Stateful.runFrom_get,
    Stateful.runFrom_liftM, liftM_self, hbind]
  generalize (Frame.bindLocals function.buffers bound).runFrom heap = run at hlocals ⊢
  obtain ⟨outcome, after⟩ := run
  cases hlocals
  rfl

end EmittedFunction

namespace FunctionBuilder

/-- A builder that has just been started, and the frame of a call that has bound
    its arguments. -/
structure Started (builder : FunctionBuilder) (function : FunctionDeclaration) (moduleName : String) (heap : Heap)
    (inputs values : List Value) (bound : Frame) : Prop where
  name_eq : builder.name = function.name
  symbol_eq : builder.symbol = function.symbol moduleName
  length_eq : (Program.arguments inputs).length = builder.parameters.length
  blocks_eq : builder.blocks = [#[]]
  bind_eq : Frame.bindArguments heap builder.name builder.bindings.toList builder.parameters
    (Program.arguments inputs) {} = .ok bound
  entered : Frame.Entered heap inputs values builder.buffers.toList 0 {} bound

/-- A function of inputs that starts can be called with the inputs. Their types
    are those of the parameters. -/
theorem exists_started {function : FunctionDeclaration} {moduleName : String} {heap : Heap}
    {inputs values : List Value} {builder : FunctionBuilder} (hinputs : ∀ input ∈ inputs, Program.Input heap input)
    (hparameters : function.parameters = inputs.map ValueType.of)
    (hstart : start function moduleName = .ok (values, builder)) :
    ∃ bound, builder.Started function moduleName heap inputs values bound := by
  rw [start, hparameters] at hstart
  obtain ⟨declarations, bindings, bound, rfl, hbind, hentered⟩ :=
    exists_entered hinputs hstart function.name (Frame.below_empty heap)
  refine ⟨bound, rfl, rfl, ?_, rfl, ?_, ?_⟩
  · rw [Program.length_arguments hinputs, List.length_map]
  · simpa using hbind
  · simpa using hentered

/-- Without room for a piece that was recorded, the function is not entered. Its
    body may never come to use that storage. -/
theorem Started.fst_invoke_of_full {builder : FunctionBuilder} {function : FunctionDeclaration} {moduleName : String}
    {heap : Heap} {inputs values : List Value} {bound : Frame}
    (h : builder.Started function moduleName heap inputs values bound) {f : Fragment}
    (hplaced : f.Placed builder.buffers.size) (hfull : ¬f.HasRoom) (operand : Option Operand)
    (call : String → HostFunction) :
    (((builder.finished f operand).invoke call (Program.arguments inputs)).runFrom heap).1 =
      .error (.fault .capacityOverflow) := by
  simp only [Fragment.HasRoom, not_forall] at hfull
  obtain ⟨declaration, hmem, hfull⟩ := hfull
  have hmem' : declaration ∈ (builder.finished f operand).buffers := by simp [finished, hmem]
  have hlocal : declaration.isLocal = true := by
    rw [BufferDeclaration.isLocal, hplaced.source_eq declaration hmem]
    rfl
  exact EmittedFunction.fst_invoke_of_full h.length_eq h.bind_eq hmem' hlocal hfull

end FunctionBuilder

namespace Comparison

variable [ArrayLibrary] {c : Comparison} {builder : FunctionBuilder} {f : Fragment}

/-- A call of a finished function begins at a moment from which the recorded
    body can be followed. -/
theorem exists_entry {function : FunctionDeclaration} {moduleName : String} {heap : Heap} {inputs values : List Value}
    {bound : Frame} (hstarted : builder.Started function moduleName heap inputs values bound)
    (hplaced : f.Placed builder.buffers.size) (hroom : f.HasRoom)
    (hdeclarations : c.declarations = (builder.extend f).buffers.toList) (horiginals : c.originals = heap.buffers.size)
    (hsigned : ∀ ref : HostRef, ref.index < heap.buffers.size → Word.Signed (heap.get ref).length) :
    ∃ l : Link, l.At builder ∧ c.Sound l ∧ List.Forall₂ l.Matches values inputs ∧ c.Untouched l ∧
      l.direct = heap ∧ l.log = [] ∧
        (Frame.bindLocals c.declarations bound).runFrom heap = (.ok l.running.frame, l.running.heap) := by
  have hentered := hstarted.entered
  have hparts : c.declarations = builder.buffers.toList ++ f.buffers := by simp [hdeclarations]
  have hnodup : (c.declarations.map BufferDeclaration.id).Nodup := by
    rw [hparts]
    refine BufferDeclaration.nodup_of_id_eq (BufferDeclaration.id_eq_append ?_ hplaced.id_eq)
    exact fun k declaration hget => by simpa using hentered.id_eq k declaration hget
  have hown : ∀ declaration ∈ c.declarations, declaration.isLocal = true → declaration ∈ f.buffers := by
    intro declaration hmem hlocal
    rw [hparts, List.mem_append] at hmem
    refine hmem.resolve_left fun hmem => ?_
    rw [hentered.isLocal_eq declaration hmem] at hlocal
    cases hlocal
  have howned : ∀ declaration ∈ c.declarations, declaration.isLocal = true →
      builder.buffers.toList.length ≤ declaration.id.index := by
    intro declaration hmem hlocal
    obtain ⟨k, hget⟩ := List.mem_iff_getElem?.mp (hown declaration hmem hlocal)
    rw [hplaced.id_eq k declaration hget]
    simp
  obtain ⟨running, hlocals, hprepared⟩ := Frame.exists_prepared
    (fun declaration hmem hlocal => hroom declaration (hown declaration hmem hlocal)) hnodup
    fun id other base hget => (hentered.below id other base hget).2
  have hbelow : bound.Below heap builder.buffers.toList.length := by simpa using hentered.below
  refine ⟨.entry heap bound running builder.nextRegister builder.buffers.toList.length, ⟨rfl, by simp [Link.entry]⟩,
    sound_entry horiginals hbelow howned hprepared hsigned, forall₂_matches_entry howned hentered hprepared,
    untouched_entry hprepared, rfl, rfl, hlocals⟩

/-- A recorded program with its result is followed by the direct execution with
    its own. -/
theorem records_body {n : Nat} (program : Program n) (function : FunctionDeclaration) (values : List Value) :
    c.Records builder (do
        let result ← program.body values
        .onEmitter c.id (Emitter.resultOperand function result)) fun operand f =>
      (builder.extend f).buffers.toList <+: c.declarations → ∀ l inputs, l.At builder → c.Sound l →
        List.Forall₂ l.Matches values inputs → c.Untouched l →
          c.Follows program.Escapes l f (do Program.readResult (← program.body inputs))
            fun l' => Option.Rel l'.Holds operand := by
  refine .bind (records_run program false (.ofList n values)) fun result f hrun => ?_
  refine (@records_result _ _ program.Escapes _ function result).mono fun operand g hresult => ?_
  intro hprefix l inputs hat hsound hmatches huntouched
  rw [← FunctionBuilder.extend_extend] at hprefix
  refine (hrun ((FunctionBuilder.prefix_extend _ _).trans hprefix) l _ hat hsound
    (Link.envMatches_ofList hmatches n) fun _ => huntouched).bind (fun _ => .readResult _) ?_
  intro l' result' hreaches hrel
  exact hresult l' result' (hreaches.at_extend hat) hreaches.sound hrel

end Comparison

end StagedArrays
