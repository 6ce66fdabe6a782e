import StagedArrays.Proofs.Context.Nesting
import StagedArrays.Proofs.Emission.Straight
import StagedArrays.Proofs.Program.Bulk

namespace StagedArrays

/-- What an emitter does has nothing to do with the client. So the recording may
    be compared with one that keeps a log. -/
theorem Action.runFrom_onEmitter_withClient {σ τ α : Type} {id : EmitterId} {action : EmitterM α} {world after : World σ}
    {outcome : Except (Failure ValueError) α} (h : (onEmitter id action).runFrom world = (outcome, after)) (client : τ) :
    (onEmitter id action).runFrom (world.withClient client) = (outcome, after.withClient client) := by
  cases h
  rfl

namespace BulkOp

variable {σ τ : Type} {ops : List BulkOp} {inputs env : List Value}

/-- Operations that are carried out in a context are those of a program that
    runs there. -/
theorem runFrom_program [ArrayLibrary] {context : Context} {world after : World σ} (hactive : world.contexts.head? = some context)
    (h : (performAll context ops inputs).runFrom world = (.ok env, after)) (log : AccessLog) :
    ∃ log', ((program ops inputs.length).body inputs).runFrom (world.withClient log) = (.ok none, after.withClient log') := by
  have hmirrors : (performAll context ops inputs >>= fun _ => pure none : Action σ (Option Value)).Mirrors context
      ((program ops inputs.length).body inputs) := mirrors_program ops rfl
  obtain ⟨houtcome, hshadows⟩ := hmirrors world (world.withClient log) ⟨rfl, rfl, rfl, hactive⟩
  rw [Stateful.runFrom_bind_of_ok h] at houtcome hshadows
  exact ⟨_, Prod.ext houtcome hshadows.eq_withClient⟩

/-- Direct operations that are carried out have had room for what they have
    taken. -/
theorem hasRoom_of_performAll {world after : World σ} {values : List Value}
    (h : (performAll .compute ops values).runFrom world = (.ok env, after)) (n : Nat) : (program ops n).HasRoom := by
  induction ops generalizing world values n with
  | nil => trivial
  | cons op ops ih =>
    obtain ⟨values', between, hop, hrest⟩ := Stateful.runFrom_bind_eq_ok.mp h
    cases op with
    | allocate dtype shape =>
      obtain ⟨fresh, _, hfresh, -⟩ := Stateful.runFrom_bind_eq_ok.mp hop
      rw [Context.allocate, Action.runFrom_onHeap, Prod.mk.injEq] at hfresh
      exact ⟨Direct.reserve_of_allocate (Prod.ext hfresh.1 rfl), ih hrest _⟩
    | view source shape => exact ih hrest _
    | copy shape destination source => exact ⟨trivial, ih hrest _⟩
    | update op shape spread destination source => cases spread <;> exact ⟨trivial, ih hrest _⟩

/-- Operations leave the contexts as they are. This is so however many of them
    there are. -/
theorem contexts_eq_of_performAll {context : Context} {world after : World σ}
    (h : (performAll context ops inputs).runFrom world = (.ok env, after)) : after.contexts = world.contexts := by
  have hstays := moves_performAll Context.follows_stays Context.stays_allocate context ops inputs world
  rwa [h] at hstays

/-- The program is executed as the operations are carried out directly. -/
theorem runFrom_execute [ArrayLibrary] {world after : World σ} (hactive : world.contexts.head? = some .compute)
    (h : (performAll .compute ops inputs).runFrom world = (.ok env, after)) (log : AccessLog) :
    ∃ final, ((program ops inputs.length).execute inputs).runFrom
        { world.withClient log with contexts := world.contexts.tail } = (.ok none, final) ∧ final.heap = after.heap := by
  have hcontexts : Context.compute :: world.contexts.tail = world.contexts := List.cons_head?_tail hactive
  obtain ⟨log', hbody⟩ := runFrom_program hactive h log
  have hrun : (do Program.readResult (← (program ops inputs.length).body inputs)).runFrom
      { world.withClient log with contexts := .compute :: world.contexts.tail } = (.ok none, after.withClient log') := by
    rw [hcontexts]
    exact Stateful.runFrom_bind_of_ok hbody _
  refine ⟨_, Action.runFrom_withContext_of_length_eq hrun ?_, rfl⟩
  rw [World.withClient, contexts_eq_of_performAll h, ← hcontexts]
  rfl

variable {recording started performed ended recorded : World τ} {moduleName : String} {config : EmitterConfig}
  {function : FunctionDeclaration} {id : EmitterId} {client : τ} {operand : Option Operand}

/-- The program is recorded as the operations are carried out by an emitter. -/
theorem runFrom_define [ArrayLibrary] (hid : id = ⟨recording.emitters.size⟩)
    (hstart : (Action.onEmitter id (Emitter.startFunction function)).runFrom
      { recording with emitters := recording.emitters.push { moduleName, config } } = (.ok inputs, started))
    (h : (performAll (.emitter id) ops inputs).runFrom { started with contexts := .emitter id :: started.contexts } =
      (.ok env, performed))
    (hresult : (Action.onEmitter id (Emitter.resultOperand function none)).runFrom (performed.withClient client) =
      (.ok operand, ended))
    (hend : (Action.onEmitter id (Emitter.endFunction (.ok operand))).runFrom
      { ended with contexts := ended.contexts.tail } = (.ok (), recorded)) (log : AccessLog) :
    ∃ log', ((program ops inputs.length).define moduleName config function).runFrom (recording.withClient log) =
      (.ok id, recorded.withClient log') := by
  subst hid
  obtain ⟨log', hbody⟩ := runFrom_program rfl h log
  have hrun : (do
      let result ← (program ops inputs.length).body inputs
      Action.onEmitter ⟨recording.emitters.size⟩ (Emitter.resultOperand function result)).runFrom
        { started.withClient log with contexts := .emitter ⟨recording.emitters.size⟩ :: started.contexts } =
          (.ok operand, ended.withClient log') :=
    (Stateful.runFrom_bind_of_ok hbody _).trans (Action.runFrom_onEmitter_withClient hresult log')
  have hlength : ended.contexts.length = started.contexts.length + 1 := by
    have hcontexts := Action.stays_onEmitter ⟨recording.emitters.size⟩ (Emitter.resultOperand function none)
      (performed.withClient client)
    rw [hresult] at hcontexts
    rw [hcontexts, World.withClient, contexts_eq_of_performAll h]
    rfl
  have hnew : (Action.newEmitter moduleName config).runFrom (recording.withClient log) = (.ok ⟨recording.emitters.size⟩,
      { recording with emitters := recording.emitters.push { moduleName, config } }.withClient log) := rfl
  have hdefine := (Action.runFrom_defineFunction_of_length_eq (Action.runFrom_onEmitter_withClient hstart log) hrun hlength).trans
    (Action.runFrom_onEmitter_withClient hend log')
  exact ⟨log', (Stateful.runFrom_bind_of_ok hnew _).trans (Stateful.runFrom_bind_of_ok hdefine _)⟩

/-- Operations that are carried out directly on inputs, and recorded as a
    function with parameters of their types, leave the same contents in all
    storage that there was when the function is called. -/
theorem invoke_eq_performAll {executing after : World σ} {parameters env' : List Value}
    (hactive : executing.contexts.head? = some .compute) (hinput : ∀ value ∈ inputs, Program.Input executing.heap value)
    (hsigned : ∀ ref : HostRef, ref.index < executing.heap.buffers.size → Word.Signed (executing.heap.get ref).length)
    (hparameters : function.parameters = inputs.map ValueType.of) (hlength : parameters.length = inputs.length)
    (hdirect : (performAll .compute ops inputs).runFrom executing = (.ok env, after)) (hid : id = ⟨recording.emitters.size⟩)
    (hstart : (Action.onEmitter id (Emitter.startFunction function)).runFrom
      { recording with emitters := recording.emitters.push { moduleName, config } } = (.ok parameters, started))
    (hrecord : (performAll (.emitter id) ops parameters).runFrom { started with contexts := .emitter id :: started.contexts } =
      (.ok env', performed))
    (hresult : (Action.onEmitter id (Emitter.resultOperand function none)).runFrom (performed.withClient client) =
      (.ok operand, ended))
    (hend : (Action.onEmitter id (Emitter.endFunction (.ok operand))).runFrom
      { ended with contexts := ended.contexts.tail } = (.ok (), recorded)) :
    ∃ module, (Action.finishModule id).runFrom recorded = (.ok module, recorded) ∧ ∀ table,
      module.compile table = .ok ⟨module, table⟩ ∧
        ∀ depth name, name = function.name ∨ name = function.symbol moduleName → ∃ heap,
          ((⟨module, table⟩ : CompiledModule).invoke depth name (Program.arguments inputs)).runFrom executing.heap =
              (.ok none, heap) ∧
            ∀ ref : HostRef, ref.index < executing.heap.buffers.size → heap.get ref = after.heap.get ref := by
  -- the operations take no inner product, so that any library will do
  let _ : ArrayLibrary := default
  obtain ⟨final, hexecute, hheap⟩ := runFrom_execute hactive hdirect []
  obtain ⟨log, hdefine⟩ := runFrom_define hid hstart hrecord hresult hend []
  rw [hlength] at hdefine
  obtain ⟨module, hfinish, hmodule⟩ := (straight_program ops inputs.length).invoke_eq
    (hasRoom_of_performAll hdirect _) hinput hsigned rfl hparameters hdefine hexecute
  rw [hheap] at hmodule
  exact ⟨module, Action.runFrom_onEmitter_withClient hfinish recorded.client, hmodule⟩

end BulkOp

end StagedArrays
