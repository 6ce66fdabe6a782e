import StagedArrays.Proofs.Script.Session

namespace StagedArrays

namespace EmittedFunction

/-- The registers that parameters, loops and instructions of a function assign,
    in program order. -/
def registers (function : EmittedFunction) : List RegisterId :=
  function.bindings.filterMap ParameterBinding.register? ++ blockOutputs function.body

/-- A function that assigns each register in one place, numbers its buffers in
    order, and keeps to the budget. -/
structure WellFormed (function : EmittedFunction) (config : EmitterConfig) : Prop where
  nodup_registers : function.registers.Nodup
  id_eq : ∀ (k : Nat) (declaration : BufferDeclaration), function.buffers[k]? = some declaration → declaration.id = ⟨k⟩
  length_localBuffers_le : function.localBuffers.length ≤ config.maxBuffers
  localStorageBytes_le : ∃ bytes, function.localStorageBytes = .ok bytes ∧ bytes ≤ config.maxStorageBytes

end EmittedFunction

namespace Emission

variable {emitter : Emitter} {builder : FunctionBuilder} {events : List EmitterEvent} {f : Fragment}

/-- Whatever events an emitter goes through, what they record is orderly. By
    induction on the events. -/
theorem orderly (h : Emission emitter builder events f) : f.Orderly emitter.config builder := by
  induction h with
  | nil => exact Fragment.orderly_empty
  | operation _ horderly => exact horderly
  | loops _ ih => exact ih.nest
  | append _ _ ih ih' => exact ih.append ih'

/-- What is recorded, loops apart, is what operations have recorded, in
    order. -/
theorem blockSteps_eq (h : Emission emitter builder events f) (hblocks : builder.blocks ≠ []) :
    blockSteps f.code = events.flatMap EmitterEvent.code := by
  induction h with
  | nil => rfl
  | operation _ _ hsteps hcode => simp [EmitterEvent.code, hcode hblocks, hsteps]
  | @loops builder extents _ _ _ ih =>
    rw [Fragment.blockSteps_nest, ih (FunctionBuilder.blocks_opened_ne_nil hblocks extents.length)]
    simp [EmitterEvent.code]
  | append _ _ ih ih' =>
    rw [Fragment.append, blockSteps_append, ih hblocks, ih' (FunctionBuilder.blocks_extend_ne_nil hblocks _),
      List.flatMap_append]

end Emission

namespace Emitter

variable {emitter : Emitter} {function : EmittedFunction} {transcript : Transcript}

/-- However a function came about, it is well formed. -/
theorem Recorded.wellFormed (h : emitter.Recorded function transcript) : function.WellFormed emitter.config := by
  obtain ⟨hstart, hbody, -, horderly, -⟩ := h
  next builder _ f g _ operand =>
  have hentering := FunctionBuilder.entering_start hstart
  have horderly' := hbody.orderly.append horderly
  have hbudget := horderly'.inBudget (hentering.inBudget emitter.config)
  refine ⟨?_, fun k declaration hget => ?_, hbudget.1, hbudget.2⟩
  · have hregisters : (builder.finished (f.append g) operand).registers =
        FunctionBuilder.loopRegisters 0 (builder.nextRegister + (f.append g).registers) := by
      have happend := FunctionBuilder.loopRegisters_append 0 builder.nextRegister (f.append g).registers
      rw [Nat.zero_add] at happend
      rw [EmittedFunction.registers, ← happend, ← hentering.registers_eq, ← horderly'.outputs_eq]
      rfl
    rw [hregisters, FunctionBuilder.loopRegisters]
    exact List.pairwise_map.mpr ((List.nodup_range' 1).imp fun hne heq => hne (congrArg RegisterId.index heq))
  · have hbuffers : (builder.finished (f.append g) operand).buffers = builder.buffers.toList ++ (f.append g).buffers := by
      simp [FunctionBuilder.finished]
    rw [hbuffers] at hget
    exact BufferDeclaration.id_eq_append hentering.id_eq horderly'.id_eq k declaration hget

/-- The instructions of a function, loops apart, are those its body has
    emitted. -/
theorem Recorded.blockSteps_eq (h : emitter.Recorded function transcript) :
    blockSteps function.body = transcript.emitted := by
  obtain ⟨hstart, hbody, -, -, hsteps⟩ := h
  next builder _ f g _ operand =>
  have hblocks : builder.blocks ≠ [] := by simp [FunctionBuilder.blocks_start hstart]
  change blockSteps (f.append g).code = _
  rw [Fragment.append, blockSteps_append, hbody.blockSteps_eq hblocks, hsteps]
  simp [Transcript.emitted, EmitterEvent.code]

/-- How many blocks of the function in progress are open. There is one for its
    body and one for each open loop. -/
def openBlocks (emitter : Emitter) : Option Nat := emitter.current.map (·.blocks.length)

/-- Every loop that is opened is closed. -/
theorem Proceeds.openBlocks_eq {after : Emitter} {page page' : Page} (h : emitter.Proceeds page after page') :
    after.openBlocks = emitter.openBlocks := by
  cases hcurrent : emitter.current with
  | none => rw [openBlocks, h.current_eq_none hcurrent, openBlocks, hcurrent]
  | some builder =>
    obtain ⟨events, f, -, rfl, -⟩ := (proceeds_iff hcurrent).mp h
    simp [openBlocks, emitting, hcurrent, FunctionBuilder.length_blocks_extend]

end Emitter

namespace Journal

variable {id : EmitterId} {function : FunctionDeclaration} {action : List Value → Action Journal (Option Value)}
  {parameters : List Value} {operand : Option Operand} {world started inner : World Journal}

/-- A function that starts and whose body ends with a result is recorded.
    Nothing else is needed for it. -/
theorem exists_define (h : ∀ parameters world, World.Leads id world ((action parameters).runFrom world))
    (hlt : id.index < world.emitters.size)
    (hstart : (Action.onEmitter id (Emitter.startFunction function)).runFrom world = (.ok parameters, started))
    (hbody : (Action.withContext (.emitter id) do
      let result ← body id function action parameters
      Action.onEmitter id (Emitter.resultOperand function result)).runFrom started = (.ok operand, inner)) :
    ∃ after, (define id function action).runFrom world = (.ok (), after) := by
  rw [Action.runFrom_onEmitter_eq] at hstart
  rcases Emitter.runFrom_startFunction (world.emitterAt id) function with
    ⟨failure, hrun⟩ | ⟨parameters', builder, hcurrent, hbuilder, hrun⟩
  · simp [hrun] at hstart
  · rw [hrun] at hstart
    cases hstart
    have hemitter : (starting world id builder).emitterAt id =
        { world.emitterAt id with current := some builder, scope := (world.emitterAt id).scope + 1 } := by
      rw [starting, World.emitterAt_replaced, if_pos ⟨rfl, hlt⟩]
    obtain ⟨final, hfinal, hcontexts⟩ := Action.exists_of_withContext hbody fun _ heq => by cases heq
    obtain ⟨outcome, after, hrun', hended⟩ := exists_ended h parameters
      { starting world id builder with contexts := .emitter id :: (starting world id builder).contexts }
    cases hfinal.symm.trans hrun'
    obtain ⟨f, hafter, -⟩ := hended.recorded operand rfl builder (congrArg Emitter.current hemitter) (by
      change FunctionBuilder.start function ((starting world id builder).emitterAt id).moduleName = _
      rw [hemitter]
      exact hbuilder)
    have hinner : inner.emitterAt id = ((starting world id builder).emitterAt id).emitting (builder.extend f) := by
      rw [hcontexts]
      exact hafter
    rw [runFrom_define_of_start hrun hbody]
    dsimp only
    rw [Stateful.runFrom_bind, Action.runFrom_onEmitter_eq, hinner,
      Emitter.runFrom_endFunction_of_ok (FunctionBuilder.blocks_start hbuilder)]
    exact ⟨_, rfl⟩

end Journal

/-- A finished module consists of the functions recorded so far. -/
theorem Action.functions_of_finishModule {σ : Type} {id : EmitterId} {world after : World σ} {module : EmittedModule}
    (h : (finishModule id).runFrom world = (.ok module, after)) :
    module.functions = (world.emitterAt id).functions.toList := by
  rw [finishModule, runFrom_onEmitter_eq, Prod.mk.injEq] at h
  cases hcurrent : (world.emitterAt id).current with
  | some builder => simp [Emitter.finish, Stateful.runFrom_bind, hcurrent] at h
  | none =>
    simp only [Emitter.finish, Stateful.runFrom_bind, Stateful.runFrom_get, hcurrent] at h
    rw [← Except.ok.inj h.1]

namespace Script

/-- Every function that a program defines is well formed, and consists of the
    instructions that its body has emitted, in order. Loops leave as many blocks
    open as there were, so that a function whose body ends with a result is
    recorded. -/
theorem emitted_wellFormed {α : Type} (script : Script α) (heap : Heap) :
    (∀ (id : EmitterId) (module : EmittedModule) (final : World Journal),
      (Action.finishModule id).runFrom (script.run.runFrom (.outset heap)).2 = (.ok module, final) →
        List.Forall₂ (fun function transcript =>
          function.WellFormed ((script.run.runFrom (.outset heap)).2.emitterAt id).config ∧
            blockSteps function.body = transcript.emitted)
          module.functions ((script.run.runFrom (.outset heap)).2.client id).recorded) ∧
      (∀ (world after : World Journal) (context : Context) (layout : Layout) (body : List Scalar → Script Unit)
        (outcome : Except (Failure ValueError) Unit),
        (forEach context layout body done).run.runFrom world = (outcome, after) →
          (∀ fault, outcome ≠ .error (.fault fault)) →
            ∀ id, (after.emitterAt id).openBlocks = (world.emitterAt id).openBlocks) ∧
      ∀ (world started inner : World Journal) (id : EmitterId) (function : FunctionDeclaration)
        (body : List Value → Script (Option Value)) (parameters : List Value) (operand : Option Operand),
        id.index < world.emitters.size →
          (Action.onEmitter id (Emitter.startFunction function)).runFrom world = (.ok parameters, started) →
          (Action.withContext (.emitter id) do
            let result ← Journal.body id function (fun parameters => (body parameters).run) parameters
            Action.onEmitter id (Emitter.resultOperand function result)).runFrom started = (.ok operand, inner) →
            ∃ after, (define id function body done).run.runFrom world = (.ok (), after) := by
  refine ⟨fun id module final hfinish => ?_, fun world after context layout body outcome hrun hfault id => ?_,
    fun world started inner id function body parameters operand hlt hstart hbody => ?_⟩
  · have hdocumented := World.documented_run script heap id
    rw [Action.functions_of_finishModule hfinish]
    refine hdocumented.imp fun function transcript ⟨origin, hconfig, hrecorded⟩ => ⟨?_, hrecorded.blockSteps_eq⟩
    rw [← hconfig]
    exact hrecorded.wellFormed
  · have hleads := (forEach context layout body done).leads id world
    rw [hrun] at hleads
    exact (hleads.proceeds hfault).openBlocks_eq
  · obtain ⟨after, hdefine⟩ := Journal.exists_define (fun parameters world => (body parameters).leads id world)
      hlt hstart hbody
    exact ⟨after, Stateful.runFrom_bind_of_ok (Stateful.runFrom_caught_of_ok hdefine) _⟩

/-- A function of a factor and a vector. It gives an integer back. -/
def scaledDeclaration : FunctionDeclaration where
  name := "scaled"
  returnType := some (.scalar .i64)
  parameters := [.scalar .i64, .pointer .i64 ⟨[2], [1]⟩]

/-- What its parameters are known by. -/
def scaledParameters : List Value := [.register .i64 ⟨0⟩, .emittedBuffer .i64 ⟨[2], [1]⟩ ⟨0⟩]

/-- Loops that record the product of a factor and an element of a vector, and
    fail. -/
def productLoops (factor vector : Value) (next : Except ValueError Unit → Script (Option Value)) :
    Script (Option Value) :=
  forEach (.emitter ⟨0⟩) ⟨[2, 3], [3, 1]⟩
    (fun coordinates => perform (.emitter ⟨0⟩) (.element vector (coordinates.take 1)) fun
      | .ok (some entry) => perform (.emitter ⟨0⟩) (.binary .mul factor entry) fun _ => done (.error .noActiveContext)
      | _ => done (.ok ()))
    next

/-- Goes on after loops have failed, and returns the first element of the
    vector. -/
def scaledBody : List Value → Script (Option Value)
  | [factor, vector] => productLoops factor vector fun _ =>
      perform (.emitter ⟨0⟩) (.element vector [Scalar.ofIndex 0]) done
  | _ => done (.ok none)

/-- Defines the function in a new module. -/
def scaled : Script Unit := newEmitter "m" {} fun id => define id scaledDeclaration scaledBody done

/-- Only a new emitter. -/
@[irreducible]
def blank : World Journal := ((newEmitter "m" {} fun _ => done (.ok ())).run.runFrom (.outset ⟨#[]⟩)).2

/-- An emitter with the function in progress. -/
@[irreducible]
def begun : World Journal := ((Action.onEmitter ⟨0⟩ (Emitter.startFunction scaledDeclaration)).runFrom blank).2

/-- A module with one function that multiplies a vector by a scalar in a loop.
    Its registers are numbered in the order in which the code assigns them. -/
theorem emitted_wellFormed_scaled :
    (∃ module final, (Action.finishModule ⟨0⟩).runFrom (scaled.run.runFrom (.outset ⟨#[]⟩)).2 = (.ok module, final) ∧
      (module.functions.map fun function => (blockOutputs function.body).map RegisterId.index) = [[1, 2, 3, 4, 5, 6, 7]] ∧
        List.Forall₂ (fun function transcript =>
          function.WellFormed ((scaled.run.runFrom (.outset ⟨#[]⟩)).2.emitterAt ⟨0⟩).config ∧
            blockSteps function.body = transcript.emitted)
          module.functions ((scaled.run.runFrom (.outset ⟨#[]⟩)).2.client ⟨0⟩).recorded) ∧
      (∃ after, (forEach (.emitter ⟨0⟩) ⟨[2], [1]⟩ (fun _ => done (.error .noActiveContext)) done).run.runFrom begun =
          (.error (.error .noActiveContext), after) ∧
        (after.emitterAt ⟨0⟩).openBlocks = (begun.emitterAt ⟨0⟩).openBlocks) ∧
      ∃ after, (define ⟨0⟩ scaledDeclaration scaledBody done).run.runFrom blank = (.ok (), after) := by
  obtain ⟨hfunctions, hloops, hdefine⟩ := emitted_wellFormed scaled ⟨#[]⟩
  refine ⟨?_, ?_, ?_⟩
  · have houtputs : ((Action.finishModule ⟨0⟩).runFrom (scaled.run.runFrom (.outset ⟨#[]⟩)).2).1.toOption.map (fun module =>
        module.functions.map fun function => (blockOutputs function.body).map RegisterId.index) =
          some [[1, 2, 3, 4, 5, 6, 7]] := by decide +kernel
    obtain ⟨module, hmodule, houtputs⟩ := Option.map_eq_some_iff.mp houtputs
    cases hfinish : (Action.finishModule ⟨0⟩).runFrom (scaled.run.runFrom (.outset ⟨#[]⟩)).2 with
    | mk outcome final =>
      rw [hfinish] at hmodule
      cases outcome with
      | error failure => cases hmodule
      | ok module' =>
        cases hmodule
        exact ⟨module, final, rfl, houtputs, hfunctions ⟨0⟩ module final hfinish⟩
  · have hfails : ((forEach (.emitter ⟨0⟩) ⟨[2], [1]⟩ (fun _ => done (.error .noActiveContext)) done).run.runFrom
        begun).1 = .error (.error .noActiveContext) := by decide +kernel
    cases hrun : (forEach (.emitter ⟨0⟩) ⟨[2], [1]⟩ (fun _ => done (.error .noActiveContext)) done).run.runFrom begun with
    | mk outcome after =>
      rw [hrun] at hfails
      cases hfails
      exact ⟨after, rfl, hloops begun after _ _ _ _ hrun (fun _ heq => nomatch heq) ⟨0⟩⟩
  · have hstart : ((Action.onEmitter ⟨0⟩ (Emitter.startFunction scaledDeclaration)).runFrom blank).1 =
        .ok scaledParameters := by decide +kernel
    have hbody : ((Action.withContext (.emitter ⟨0⟩) (do
        let result ← Journal.body ⟨0⟩ scaledDeclaration (fun parameters => (scaledBody parameters).run) scaledParameters
        Action.onEmitter ⟨0⟩ (Emitter.resultOperand scaledDeclaration result))).runFrom begun).1 =
          .ok (some (.register ⟨7⟩)) := by decide +kernel
    have hlt : (⟨0⟩ : EmitterId).index < blank.emitters.size := by decide +kernel
    rw [begun] at hbody
    exact hdefine _ _ _ _ _ _ _ _ hlt (Prod.ext_iff.mpr ⟨hstart, rfl⟩) (Prod.ext_iff.mpr ⟨hbody, rfl⟩)

end Script

end StagedArrays
