import StagedArrays.Proofs.Context
import StagedArrays.Proofs.Emission.Link

namespace StagedArrays

namespace Comparison

theorem placed_empty (first : Nat) : Fragment.empty.Placed first :=
  Fragment.placed_of_quiet first rfl rfl

variable [ArrayLibrary] (c : Comparison)

/-- The emitter with a function in progress. Nothing else about it changes while
    a body is recorded. -/
def emitterAt (builder : FunctionBuilder) : Emitter := { c.emitter with current := some builder }

/-- The recording world with a function in progress, and with a log that is of
    no consequence. -/
def recordingAt (builder : FunctionBuilder) (log : AccessLog) : World AccessLog :=
  { c.recording with
    emitters := c.recording.emitters.setIfInBounds c.id.index (c.emitterAt builder)
    client := log }

/-- Whenever an operation of the emitter succeeds, it has recorded a piece at
    the end of the function in progress. -/
def Emits {α : Type} (builder : FunctionBuilder) (action : EmitterM α) (post : α → Fragment → Prop) :
    Prop :=
  ∀ value emitter, action.runFrom (c.emitterAt builder) = (.ok value, emitter) →
    ∃ f, emitter = c.emitterAt (builder.extend f) ∧ f.Placed builder.buffers.size ∧ post value f

/-- Whenever an operation succeeds in the recording world, it has recorded a
    piece at the end of the function in progress. -/
def Records {α : Type} (builder : FunctionBuilder) (action : Action AccessLog α)
    (post : α → Fragment → Prop) : Prop :=
  ∀ log value world, action.runFrom (c.recordingAt builder log) = (.ok value, world) →
    ∃ f log', world = c.recordingAt (builder.extend f) log' ∧ f.Placed builder.buffers.size ∧
      post value f

variable {c} {α β : Type} {builder : FunctionBuilder}

theorem Emits.pure {value : α} {post : α → Fragment → Prop} (h : post value .empty) :
    c.Emits builder (pure value) post := by
  intro result emitter hrun
  cases hrun
  exact ⟨.empty, by simp, placed_empty _, h⟩

/-- An operation that only computes records nothing. -/
theorem Emits.lift {m : Type → Type} [MonadLiftT m (Except (Failure ValueError))] {x : m α}
    {post : α → Fragment → Prop}
    (h : ∀ value, (liftM x : Outcome α) = .ok value → post value .empty) :
    c.Emits builder (liftM x) post := by
  intro value emitter hrun
  rw [Stateful.runFrom_liftM, Prod.mk.injEq] at hrun
  exact ⟨.empty, by simp [hrun.2], placed_empty _, h value hrun.1⟩

/-- An error records nothing that has to be described. Only success is spoken
    of. -/
theorem Emits.fail {cause : ValueError} {post : α → Fragment → Prop} :
    c.Emits builder (Stateful.fail cause) post := by
  intro value emitter hrun
  cases hrun

/-- What is said of a recording may be weakened. The recording is the same. -/
theorem Emits.mono {action : EmitterM α} {post post' : α → Fragment → Prop}
    (h : c.Emits builder action post) (himp : ∀ value f, post value f → post' value f) :
    c.Emits builder action post' := by
  intro value emitter hrun
  obtain ⟨f, hemitter, hplaced, hpost⟩ := h value emitter hrun
  exact ⟨f, hemitter, hplaced, himp value f hpost⟩

/-- One operation after another records one piece after another. The second
    starts from the builder that the first has left. -/
theorem Emits.bind {action : EmitterM α} {next : α → EmitterM β} {post : α → Fragment → Prop}
    {post' : β → Fragment → Prop} (h : c.Emits builder action post)
    (hnext : ∀ value f, post value f →
      c.Emits (builder.extend f) (next value) fun result g => post' result (f.append g)) :
    c.Emits builder (action >>= next) post' := by
  intro result emitter hrun
  obtain ⟨value, between, haction, hrun⟩ := Stateful.runFrom_bind_eq_ok.mp hrun
  obtain ⟨f, rfl, hf, hpost⟩ := h value between haction
  obtain ⟨g, rfl, hg, hpost'⟩ := hnext value f hpost result emitter hrun
  refine ⟨f.append g, by rw [FunctionBuilder.extend_extend], hf.append ?_, hpost'⟩
  simpa using hg

/-- Making something of a result records nothing more. -/
theorem Emits.map {action : EmitterM α} {k : α → β} {post : β → Fragment → Prop}
    (h : c.Emits builder action fun value f => post (k value) f) :
    c.Emits builder (do return k (← action)) post := by
  refine .bind h fun value f hpost => .pure ?_
  rw [Fragment.append_empty]
  exact hpost

/-- What only computes before an operation adds nothing to what that records. It
    may fail, and then nothing is recorded. -/
theorem Emits.lift_bind {m : Type → Type} [MonadLiftT m (Except (Failure ValueError))] {x : m α}
    {next : α → EmitterM β} {post : β → Fragment → Prop}
    (h : ∀ value, (liftM x : Outcome α) = .ok value → c.Emits builder (next value) post) :
    c.Emits builder (liftM x >>= next) post := by
  refine @Emits.bind _ _ _ _ _ _ _ (fun value f => f = .empty ∧ (liftM x : Outcome α) = .ok value) _
    (.lift fun value hvalue => ⟨rfl, hvalue⟩) ?_
  rintro value f ⟨rfl, hvalue⟩
  simpa using h value hvalue

theorem runFrom_builder :
    Emitter.builder.runFrom (c.emitterAt builder) = (.ok builder, c.emitterAt builder) := rfl

theorem runFrom_setBuilder (next : FunctionBuilder) :
    (Emitter.setBuilder next).runFrom (c.emitterAt builder) = (.ok (), c.emitterAt next) := rfl

theorem Emits.get_bind {next : Emitter → EmitterM α} {post : α → Fragment → Prop}
    (h : c.Emits builder (next (c.emitterAt builder)) post) : c.Emits builder (get >>= next) post := by
  intro value emitter hrun
  rw [Stateful.runFrom_bind, Stateful.runFrom_get] at hrun
  exact h value emitter hrun

/-- The function in progress is known while code is recorded. It is handed to
    what comes next. -/
theorem Emits.builder_bind {next : FunctionBuilder → EmitterM α} {post : α → Fragment → Prop}
    (h : c.Emits builder (next builder) post) : c.Emits builder (Emitter.builder >>= next) post := by
  intro value emitter hrun
  rw [Stateful.runFrom_bind_of_ok runFrom_builder] at hrun
  exact h value emitter hrun

/-- Storing the extended builder emits exactly what it was extended by. -/
theorem Emits.setBuilder {f : Fragment} {post : Unit → Fragment → Prop}
    (hplaced : f.Placed builder.buffers.size) (h : post () f) :
    c.Emits builder (Emitter.setBuilder (builder.extend f)) post := by
  intro value emitter hrun
  rw [runFrom_setBuilder] at hrun
  cases hrun
  exact ⟨f, rfl, hplaced, h⟩

/-- An instruction without a result is recorded as it is. -/
theorem Emits.emit {instruction : Instruction} {post : Unit → Fragment → Prop}
    (hsymbols : ∀ symbol ∈ instruction.symbols, symbol ∈ Kernel.symbols)
    (h : post () { code := [instruction] }) :
    c.Emits builder (do Emitter.setBuilder ((← Emitter.builder).emit instruction)) post := by
  intro value emitter hrun
  rw [Stateful.runFrom_bind_of_ok runFrom_builder, runFrom_setBuilder] at hrun
  cases hrun
  refine ⟨{ code := [instruction] }, by rw [FunctionBuilder.emit_eq_extend], ⟨?_, ?_, ?_, ?_⟩, h⟩
  all_goals simp [blockSymbols]
  exact hsymbols

/-- An instruction with a result takes the next register for it. The register is
    part of what is recorded. -/
theorem Emits.emitWithOutput {instruction : RegisterId → Instruction}
    {post : RegisterId → Fragment → Prop}
    (hsymbols : ∀ output, ∀ symbol ∈ (instruction output).symbols, symbol ∈ Kernel.symbols)
    (h : post ⟨builder.nextRegister⟩
      { code := [instruction ⟨builder.nextRegister⟩], registers := 1 }) :
    c.Emits builder (Emitter.emitWithOutput instruction) post := by
  intro value emitter hrun
  unfold Emitter.emitWithOutput at hrun
  rw [Stateful.runFrom_bind_of_ok runFrom_builder, FunctionBuilder.newRegister_eq_extend] at hrun
  dsimp only at hrun
  rw [Stateful.runFrom_bind_of_ok (runFrom_setBuilder _), FunctionBuilder.emit_eq_extend,
    FunctionBuilder.extend_extend] at hrun
  cases hrun
  refine ⟨_, rfl, ⟨?_, ?_, ?_, ?_⟩, h⟩
  all_goals simp [Fragment.append, blockSymbols]
  exact hsymbols _

theorem Records.pure {value : α} {post : α → Fragment → Prop} (h : post value .empty) :
    c.Records builder (pure value) post := by
  intro log result world hrun
  cases hrun
  exact ⟨.empty, log, by simp, placed_empty _, h⟩

theorem Records.fail {cause : ValueError} {post : α → Fragment → Prop} :
    c.Records builder (Stateful.fail cause) post := by
  intro log value world hrun
  cases hrun

theorem Records.mono {action : Action AccessLog α} {post post' : α → Fragment → Prop}
    (h : c.Records builder action post) (himp : ∀ value f, post value f → post' value f) :
    c.Records builder action post' := by
  intro log value world hrun
  obtain ⟨f, log', hworld, hplaced, hpost⟩ := h log value world hrun
  exact ⟨f, log', hworld, hplaced, himp value f hpost⟩

/-- Recording goes on where it stopped: the code of a sequence is that of its
    first part followed by that of the rest. The rest is recorded by the builder
    that the first part has left. -/
theorem Records.bind {action : Action AccessLog α} {next : α → Action AccessLog β}
    {post : α → Fragment → Prop} {post' : β → Fragment → Prop} (h : c.Records builder action post)
    (hnext : ∀ value f, post value f →
      c.Records (builder.extend f) (next value) fun result g => post' result (f.append g)) :
    c.Records builder (action >>= next) post' := by
  intro log result world hrun
  obtain ⟨value, between, haction, hrun⟩ := Stateful.runFrom_bind_eq_ok.mp hrun
  obtain ⟨f, log', rfl, hf, hpost⟩ := h log value between haction
  obtain ⟨g, log'', rfl, hg, hpost'⟩ := hnext value f hpost log' result world hrun
  refine ⟨f.append g, log'', by rw [FunctionBuilder.extend_extend], hf.append ?_, hpost'⟩
  simpa using hg

/-- Making something of a result records nothing more. -/
theorem Records.map {action : Action AccessLog α} {k : α → β} {post : β → Fragment → Prop}
    (h : c.Records builder action fun value f => post (k value) f) :
    c.Records builder (do return k (← action)) post := by
  refine .bind h fun value f hpost => .pure ?_
  rw [Fragment.append_empty]
  exact hpost

/-- An operation that only computes records nothing. -/
theorem Records.lift {m : Type → Type} [MonadLiftT m (Except (Failure ValueError))] {x : m α}
    {post : α → Fragment → Prop}
    (h : ∀ value, (liftM x : Outcome α) = .ok value → post value .empty) :
    c.Records builder (liftM x) post := by
  intro log value world hrun
  rw [Stateful.runFrom_liftM, Prod.mk.injEq] at hrun
  exact ⟨.empty, log, by simp [hrun.2], placed_empty _, h value hrun.1⟩

/-- What only computes before an operation adds nothing to what that records. -/
theorem Records.lift_bind {m : Type → Type} [MonadLiftT m (Except (Failure ValueError))] {x : m α}
    {next : α → Action AccessLog β} {post : β → Fragment → Prop}
    (h : ∀ value, (liftM x : Outcome α) = .ok value → c.Records builder (next value) post) :
    c.Records builder (liftM x >>= next) post := by
  refine @Records.bind _ _ _ _ _ _ _ (fun value f => f = .empty ∧ (liftM x : Outcome α) = .ok value) _
    (.lift fun value hvalue => ⟨rfl, hvalue⟩) ?_
  rintro value f ⟨rfl, hvalue⟩
  simpa using h value hvalue

theorem getD_emitters_recordingAt (builder : FunctionBuilder) (log : AccessLog) :
    (c.recordingAt builder log).emitters[c.id.index]?.getD default = c.emitterAt builder := by
  simp [recordingAt, c.inRange]

/-- What an emitter does in the recording world. The log is left as it is. -/
theorem runFrom_onEmitter_recordingAt {action : EmitterM α} {next : FunctionBuilder}
    {outcome : Except (Failure ValueError) α} (log : AccessLog)
    (h : action.runFrom (c.emitterAt builder) = (outcome, c.emitterAt next)) :
    (Action.onEmitter c.id action).runFrom (c.recordingAt builder log) = (outcome, c.recordingAt next log) := by
  rw [Action.runFrom_onEmitter, getD_emitters_recordingAt, h]
  simp [recordingAt]

/-- What the emitter records is recorded. The world around it is not
    concerned. -/
theorem Emits.records {action : EmitterM α} {post : α → Fragment → Prop}
    (h : c.Emits builder action post) : c.Records builder (.onEmitter c.id action) post := by
  intro log value world hrun
  rw [Action.runFrom_onEmitter, getD_emitters_recordingAt, Prod.mk.injEq] at hrun
  obtain ⟨hvalue, rfl⟩ := hrun
  obtain ⟨f, hemitter, hplaced, hpost⟩ := h value _ (Prod.ext hvalue rfl)
  exact ⟨f, log, by simp [recordingAt, hemitter], hplaced, hpost⟩

/-- The active context of the recording is the emitter. Generic code goes its
    way from here. -/
theorem Records.activeContext_bind {next : Context → Action AccessLog α} {post : α → Fragment → Prop}
    (h : c.Records builder (next (.emitter c.id)) post) :
    c.Records builder (Action.activeContext >>= next) post := by
  intro log value world hrun
  have hactive : (c.recordingAt builder log).contexts.head? = some (.emitter c.id) := c.recordingActive
  rw [Stateful.runFrom_bind_of_ok (Action.runFrom_activeContext hactive)] at hrun
  exact h log value world hrun

/-- Entering accesses into the log records nothing. -/
theorem Records.note_bind (accesses : List Access) {next : Unit → Action AccessLog α}
    {post : α → Fragment → Prop} (h : c.Records builder (next ()) post) :
    c.Records builder (Program.note accesses >>= next) post := by
  intro log value world hrun
  have hnote : (Program.note accesses).runFrom (c.recordingAt builder log) =
      (.ok (), c.recordingAt builder (log ++ accesses)) := rfl
  rw [Stateful.runFrom_bind_of_ok hnote] at hrun
  exact h (log ++ accesses) value world hrun

end Comparison

end StagedArrays
