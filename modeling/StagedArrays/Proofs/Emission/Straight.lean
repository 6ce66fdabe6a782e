import StagedArrays.Proofs.Code.Targets
import StagedArrays.Proofs.Context.Orders
import StagedArrays.Proofs.Emission.Agreement

namespace StagedArrays

open Stateful (Moves)

namespace Program

/-- No inner product is taken, and no storage inside a loop. Calls of what such
    a program records depend on no table. -/
def Straight : {n : Nat} → Program n → (looping : Bool) → Prop
  | _, done _, _ => True
  | _, allocate _ _ next, looping => looping = false ∧ next.Straight looping
  | _, view _ _ next, looping => next.Straight looping
  | _, element _ _ next, looping => next.Straight looping
  | _, load _ next, looping => next.Straight looping
  | _, store _ _ next, looping => next.Straight looping
  | _, binary _ _ _ next, looping => next.Straight looping
  | _, dot _ _ _, _ => False
  | _, forEach _ body next, looping => body.Straight true ∧ next.Straight looping

end Program

/-- No storage has been taken inside a loop since. -/
def World.OpensNone (world after : World AccessLog) : Prop :=
  ∀ ref, .opened ref ∈ after.client → .opened ref ∈ world.client

instance : IsPreorder (World AccessLog) World.OpensNone where
  refl _ _ := id
  trans _ _ _ h h' ref hmem := h ref (h' ref hmem)

theorem World.opensNone_of_client_eq {world after : World AccessLog} (h : after.client = world.client) :
    world.OpensNone after := fun _ hmem => h ▸ hmem

/-- A log that tells of no storage taken in a loop body asks for nothing. What
    is read was there before. -/
theorem AccessLog.storedBeforeLoaded_of_unopened {log : AccessLog} (h : ∀ ref, .opened ref ∉ log) :
    log.StoredBeforeLoaded := by
  rintro before cell after rfl hopened
  exact (h cell.ref (List.mem_append_left _ hopened)).elim

namespace Context

theorem moves_allocate_of_client_eq (context : Context) (dtype : DType) (layout : Layout) :
    Moves World.OpensNone (context.allocate dtype layout : Action AccessLog Value) := by
  cases context <;> exact fun _ => World.opensNone_of_client_eq rfl

/-- No operation of either context touches the log of accesses, so that none of
    them counts as taking storage inside a loop. -/
theorem follows_opensNone : Context.Follows World.OpensNone where
  element context _ _ := by cases context <;> exact fun _ => World.opensNone_of_client_eq rfl
  load context _ := by cases context <;> exact fun _ => World.opensNone_of_client_eq rfl
  store context _ _ := by cases context <;> exact fun _ => World.opensNone_of_client_eq rfl
  binary context _ _ _ := by cases context <;> exact fun _ => World.opensNone_of_client_eq rfl
  openLoops _ _ _ := World.opensNone_of_client_eq rfl
  closeLoops _ _ _ _ := World.opensNone_of_client_eq rfl

end Context

namespace Program

/-- Noting accesses that are no openings adds no opening. -/
theorem opensNone_note {accesses : List Access} (h : ∀ ref, .opened ref ∉ accesses) :
    Moves World.OpensNone (note accesses) := by
  intro world ref hmem
  rcases List.mem_append.mp hmem with hmem | hmem
  · exact hmem
  · exact (h ref hmem).elim

theorem opensNone_noteLoads (values : List Value) : Moves World.OpensNone (noteLoads values) :=
  opensNone_note (by simp)

/-- Storage taken outside of loops is not noted. So it asks for no store before
    a load. -/
theorem opensNone_allocation (dtype : DType) (layout : Layout) :
    Moves World.OpensNone (allocation false dtype layout) :=
  .bind Action.moves_activeContext fun context => .bind (context.moves_allocate_of_client_eq dtype layout) fun _ =>
    .bind (opensNone_note (by simp)) fun _ => .pure _

theorem opensNone_selection (source : Value) (coordinates : List Value) :
    Moves World.OpensNone (selection source coordinates) :=
  .bind (.lift _) fun _ => .bind (opensNone_noteLoads _) fun _ => .bind Action.moves_activeContext fun context =>
    Context.follows_opensNone.element context _ _

theorem opensNone_loading (source : Value) : Moves World.OpensNone (loading source) :=
  .bind (opensNone_noteLoads _) fun _ => .bind Action.moves_activeContext fun context =>
    Context.follows_opensNone.load context _

theorem opensNone_storing (destination source : Value) : Moves World.OpensNone (storing destination source) :=
  .bind (opensNone_noteLoads _) fun _ => .bind Action.moves_activeContext fun context =>
    .bind (Context.follows_opensNone.store context _ _) fun _ => opensNone_note (by simp)

theorem opensNone_combination (op : BinaryOp) (a b : Value) : Moves World.OpensNone (combination op a b) :=
  .bind (opensNone_noteLoads _) fun _ => .bind Action.moves_activeContext fun context =>
    Context.follows_opensNone.binary context op _ _

/-- A straight program asks for no storage inside a loop. By induction on the
    program, with the flag that says whether a loop is around it. -/
theorem opensNone_run [ArrayLibrary] {n : Nat} (program : Program n) {looping : Bool} (h : program.Straight looping) (env : Env n) :
    Moves World.OpensNone (program.run looping env) := by
  induction program generalizing looping with
  | done => exact .pure _
  | allocate dtype shape next ih =>
    obtain ⟨rfl, hnext⟩ := h
    exact .bind (opensNone_allocation _ _) fun _ => ih hnext _
  | view source shape next ih => exact .bind (fun _ => World.opensNone_of_client_eq rfl) fun _ => ih h _
  | element source coordinates next ih => exact .bind (opensNone_selection _ _) fun _ => ih h _
  | load source next ih => exact .bind (opensNone_loading _) fun _ => ih h _
  | store destination source next ih => exact .bind (opensNone_storing _ _) fun _ => ih h _
  | binary op a b next ih => exact .bind (opensNone_combination _ _ _) fun _ => ih h _
  | dot => exact h.elim
  | forEach shape body next ihBody ihNext =>
    refine .bind Action.moves_activeContext fun context => .bind ?_ fun _ => ihNext h.2 _
    exact Context.follows_opensNone.forEach context _ fun coordinates => .map _ (ihBody h.1 _)

theorem opensNone_readResult (result : Option Value) : Moves World.OpensNone (readResult result) := by
  cases result with
  | none => exact .pure _
  | some value =>
    exact .bind (.lift _) fun _ => .bind (opensNone_noteLoads _) fun _ =>
      .bind (fun _ => World.opensNone_of_client_eq rfl) fun _ => .pure _

/-- Entering a context and leaving it opens nothing beside what its body
    opens. -/
theorem opensNone_withContext {α : Type} {context : Context} {body : Action AccessLog α}
    (h : Moves World.OpensNone body) : Moves World.OpensNone (Action.withContext context body) := by
  have hleave (guard : Guard) : Moves World.OpensNone (Action.leave guard) := by
    intro world
    rw [Action.leave, Stateful.runFrom_bind, Stateful.runFrom_get]
    dsimp only
    split <;> exact World.opensNone_of_client_eq rfl
  have henter : Moves World.OpensNone (Action.enter context : Action AccessLog Guard) :=
    fun _ => World.opensNone_of_client_eq rfl
  refine .bind henter fun guard => .bind (.attempt h) fun result => ?_
  rcases result with (cause | fault) | value
  · exact .bind (hleave guard) fun _ => .settle _
  · exact .bind (.map _ (.attempt (hleave guard))) fun _ => .throw _
  · exact .bind (hleave guard) fun _ => .settle _

/-- A program that takes storage outside loops only keeps to the order of
    writing and reading. -/
theorem Straight.storedBeforeLoaded [ArrayLibrary] {inputs : List Value} {program : Program inputs.length} (h : program.Straight false)
    {world : World AccessLog} (hclient : world.client = []) :
    ((program.execute inputs).runFrom world).2.client.StoredBeforeLoaded := by
  have hmoves : Moves World.OpensNone (program.execute inputs) :=
    opensNone_withContext (.bind (opensNone_run program h _) fun _ => opensNone_readResult _)
  refine AccessLog.storedBeforeLoaded_of_unopened fun ref hmem => ?_
  have hopened := hmoves world ref hmem
  rw [hclient] at hopened
  cases hopened

end Program

/-- How calls are resolved makes no difference to what does not call. Two tables
    may be exchanged. -/
theorem runBlock_eq_of_silent {call call' : String → HostFunction} {code : List Instruction}
    (h : blockSymbols code = []) : runBlock call code = runBlock call' code :=
  runBlock_congr code fun symbol hmem => by simpa [h] using blockTargets_subset code hmem

/-- A piece that calls nothing. -/
def Fragment.Silent (f : Fragment) : Prop := blockSymbols f.code = []

/-- Code that calls nothing is closed under the ways in which pieces are put
    together. -/
theorem Fragment.closed_silent : Closed Silent where
  bare h := h.symbols_eq
  append hf hg := by
    rw [Silent, append, blockSymbols_append, hf, hg]
    rfl
  nest _ _ h := by rw [Silent, blockSymbols_nest, h]

namespace Comparison

variable [ArrayLibrary] {c : Comparison}

/-- Storage outside loops is taken without a call. -/
theorem leaves_allocation (dtype : DType) (layout : Layout) :
    c.Leaves Fragment.Silent (Program.allocation false dtype layout) := by
  have hclosed := Fragment.closed_silent
  refine .activeContext_bind (.bind hclosed (fun builder => (emits_allocate dtype layout).records.mono ?_) fun fresh =>
    .note_bind _ (.pure hclosed _))
  rintro _ f ⟨size, -, -, -, rfl⟩
  rfl

/-- Recording a program without inner products calls nothing. By induction on
    the program. -/
theorem silent_run {n : Nat} (program : Program n) {looping : Bool} (h : program.Straight looping) (env : Env n) :
    c.Leaves Fragment.Silent (program.run looping env) := by
  have hclosed := Fragment.closed_silent
  induction program generalizing looping with
  | done => exact .pure hclosed _
  | allocate dtype shape next ih =>
    obtain ⟨rfl, hnext⟩ := h
    exact .bind hclosed (leaves_allocation _ _) fun _ => ih hnext _
  | view source shape next ih => exact .bind hclosed (leaves_viewing hclosed _ _) fun _ => ih h _
  | element source coordinates next ih => exact .bind hclosed (leaves_selection hclosed _ _) fun _ => ih h _
  | load source next ih => exact .bind hclosed (leaves_loading hclosed _) fun _ => ih h _
  | store destination source next ih => exact .bind hclosed (leaves_storing hclosed _ _) fun _ => ih h _
  | binary op a b next ih => exact .bind hclosed (leaves_combination hclosed _ _ _) fun _ => ih h _
  | dot => exact h.elim
  | forEach shape body next ihBody ihNext =>
    refine .activeContext_bind (.bind hclosed (.forEach hclosed fun coordinates => ?_) fun _ => ihNext h.2 _)
    exact .map hclosed _ (ihBody h.1 _)

/-- Nor does the result that it hands back. -/
theorem silent_body {n : Nat} {program : Program n} (h : program.Straight false) (function : FunctionDeclaration)
    (values : List Value) : c.Leaves Fragment.Silent (do
      let result ← program.body values
      .onEmitter c.id (Emitter.resultOperand function result)) :=
  .bind Fragment.closed_silent (silent_run program h _) fun _ =>
    .onEmitter Fragment.closed_silent (hushes_resultOperand _ _)

end Comparison

namespace Program

variable {executing recording recorded after : World AccessLog} {inputs : List Value} {program : Program inputs.length}
  {moduleName : String} {config : EmitterConfig} {function : FunctionDeclaration} {id : EmitterId}

/-- A program that takes no inner product, and storage outside loops only, can
    be executed on its inputs and recorded with parameters of their types. The
    function can be compiled with any symbols, and a call of it gives the result
    of the execution and leaves the same contents in all storage that there
    was. -/
theorem Straight.invoke_eq [ArrayLibrary] (hstraight : program.Straight false) (hroom : program.HasRoom)
    (hinput : ∀ value ∈ inputs, Input executing.heap value)
    (hsigned : ∀ ref : HostRef, ref.index < executing.heap.buffers.size → Word.Signed (executing.heap.get ref).length)
    (hclient : executing.client = []) (hparameters : function.parameters = inputs.map ValueType.of)
    (hdefine : (program.define moduleName config function).runFrom recording = (.ok id, recorded))
    {result : Option Numeric} (hexecute : (program.execute inputs).runFrom executing = (.ok result, after)) :
    ∃ module, (Action.finishModule id).runFrom recorded = (.ok module, recorded) ∧ ∀ table,
      module.compile table = .ok ⟨module, table⟩ ∧
        ∀ depth name, name = function.name ∨ name = function.symbol moduleName → ∃ heap,
          ((⟨module, table⟩ : CompiledModule).invoke depth name (arguments inputs)).runFrom executing.heap =
              (.ok result, heap) ∧
            ∀ ref : HostRef, ref.index < executing.heap.buffers.size → heap.get ref = after.heap.get ref := by
  obtain ⟨values, builder, hstart, hfinish⟩ := Comparison.exists_recorded executing hdefine
  obtain ⟨bound, hstarted⟩ := FunctionBuilder.exists_started hinput hparameters hstart
  have hempty := EmittedModule.spares_empty ""
  let resolved := Comparison.ofModule executing recording moduleName config hempty .empty 0
  obtain ⟨operand, f, hplaced, hsilent, hmodule⟩ := hfinish hstarted.blocks_eq hempty .empty 0 _
    (@Comparison.silent_body _ resolved _ _ hstraight function values builder)
  obtain ⟨operand₀, f₀, -, hroom₀, hmodule₀⟩ := hfinish hstarted.blocks_eq hempty .empty 0 _
    (@Comparison.records_room_body _ resolved builder _ program function values)
  -- the same recording, now compared with the storage that it has declared
  let c : Comparison := { resolved with declarations := (builder.finished f operand).buffers }
  obtain ⟨operand', f', hplaced', hfollows, hmodule'⟩ := hfinish hstarted.blocks_eq hempty .empty 0 _
    (@Comparison.records_body _ c builder _ program function values)
  obtain ⟨hcode, hbuffers⟩ :=
    FunctionBuilder.eq_of_finished_eq (Except.ok.inj (Prod.mk.inj (hmodule.symm.trans hmodule')).1)
  obtain ⟨-, hbuffers₀⟩ :=
    FunctionBuilder.eq_of_finished_eq (Except.ok.inj (Prod.mk.inj (hmodule₀.symm.trans hmodule')).1)
  have hsilent' : blockSymbols f'.code = [] := hcode ▸ hsilent
  have hroom' : f'.HasRoom := by
    rw [Fragment.HasRoom, ← hbuffers₀]
    exact hroom₀.mpr hroom
  have hdeclarations : c.declarations = (builder.extend f').buffers.toList := by
    rw [FunctionBuilder.buffers_extend, ← hbuffers]
    rfl
  have hexecuting (l : Link) (hdirect : l.direct = executing.heap) (hlog : l.log = []) :
      c.executingAt l = { executing with contexts := .compute :: executing.contexts } := by
    rw [Comparison.executingAt, hdirect, hlog, ← hclient]
    rfl
  have hstored := hstraight.storedBeforeLoaded hclient
  refine ⟨_, hmodule', fun table => ⟨?_, fun depth name hname => ?_⟩⟩
  · rw [EmittedModule.compile, EmittedModule.unresolved?]
    have hsymbols : [builder.finished f' operand'].flatMap EmittedFunction.referencedSymbols = [] := by
      rw [List.flatMap_singleton, EmittedFunction.referencedSymbols, show (builder.finished f' operand').body = f'.code from rfl,
        hsilent']
      rfl
    rw [hsymbols]
    rfl
  · have hlookup := @EmittedModule.lookup?_singleton moduleName (builder.finished f' operand') name
      (hname.imp (·.trans hstarted.name_eq.symm) (·.trans hstarted.symbol_eq.symm))
    have hagrees := agrees_call hstarted hplaced' hroom' hdeclarations rfl hexecuting hsigned hfollows
      (@runBlock_eq_of_silent (CompiledModule.call ⟨⟨moduleName, [builder.finished f' operand']⟩, table⟩ depth) _ _ hsilent') hstored
    rw [hexecute] at hagrees
    rw [CompiledModule.invoke, hlookup]
    exact ⟨_, Prod.ext hagrees.1 rfl, hagrees.2⟩

end Program

end StagedArrays
