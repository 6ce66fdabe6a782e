import StagedArrays.Proofs.Script.Emission

namespace StagedArrays

namespace FunctionBuilder

/-- What is recorded in an open block can be told from the outcome. So a
    description of it is unique. -/
theorem extend_injective {builder : FunctionBuilder} (hblocks : builder.blocks ≠ []) {f g : Fragment}
    (h : builder.extend f = builder.extend g) : f = g := by
  obtain ⟨code, registers, buffers⟩ := f
  obtain ⟨code', registers', buffers'⟩ := g
  obtain ⟨block, outer, heq⟩ := List.exists_cons_of_ne_nil hblocks
  have hregisters := congrArg nextRegister h
  have hbuffers := congrArg FunctionBuilder.buffers h
  have hcode := congrArg FunctionBuilder.blocks h
  simp only [nextRegister_extend, Nat.add_left_cancel_iff] at hregisters
  simp only [buffers_extend, Array.append_right_inj, Array.mk.injEq] at hbuffers
  simp only [extend, heq, List.cons.injEq, Array.append_right_inj, Array.mk.injEq, and_true] at hcode
  rw [hregisters, hbuffers, hcode]

end FunctionBuilder

/-- Every event of an operation is the operation performed at some point of the
    function. -/
theorem Emission.exists_of_performed {emitter : Emitter} {builder : FunctionBuilder} {events : List EmitterEvent}
    {f : Fragment} {operation : Operation} {outcome : Except (Failure ValueError) (Option Value)}
    {code : List Instruction} (h : Emission emitter builder events f) (hblocks : builder.blocks ≠ [])
    (hmem : .performed operation outcome code ∈ events) :
    ∃ (current : FunctionBuilder) (g : Fragment), current.blocks ≠ [] ∧ code = g.code ∧
      operation.emit.runFrom (emitter.emitting current) = (outcome, emitter.emitting (current.extend g)) := by
  induction h with
  | nil => cases hmem
  | operation hrun _ _ hcode =>
    cases List.mem_singleton.mp hmem
    exact ⟨_, _, hblocks, hcode hblocks, hrun⟩
  | loops _ ih =>
    refine ih (FunctionBuilder.blocks_opened_ne_nil hblocks _) ?_
    simpa using hmem
  | append _ _ ih ih' =>
    rcases List.mem_append.mp hmem with hmem | hmem
    · exact ih hblocks hmem
    · exact ih' (FunctionBuilder.blocks_extend_ne_nil hblocks _) hmem

/-- A result is returned only after the last of the other events. -/
theorem Emission.returned_notMem {emitter : Emitter} {builder : FunctionBuilder} {events : List EmitterEvent}
    {f : Fragment} {result : Option Value} {code : List Instruction} (h : Emission emitter builder events f) :
    .returned result code ∉ events := by
  induction h with
  | nil => exact List.not_mem_nil
  | operation => simp
  | loops _ ih => simpa using ih
  | append _ _ ih ih' => exact fun hmem => (List.mem_append.mp hmem).elim ih ih'

namespace Emitter

/-- However an action ends, it adds a piece to the function in progress, and the
    outcome and the piece are as described. -/
def Adds {α : Type} (emitter : Emitter) (builder : FunctionBuilder) (action : EmitterM α)
    (post : Except (Failure ValueError) α → Fragment → Prop) : Prop :=
  ∃ outcome f, action.runFrom (emitter.emitting builder) = (outcome, emitter.emitting (builder.extend f)) ∧
    post outcome f

namespace Adds

variable {α β : Type} {emitter : Emitter} {builder : FunctionBuilder} {action : EmitterM α}
  {post : Except (Failure ValueError) α → Fragment → Prop}

theorem mono {post' : Except (Failure ValueError) α → Fragment → Prop} (h : emitter.Adds builder action post)
    (himp : ∀ outcome f, post outcome f → post' outcome f) : emitter.Adds builder action post' := by
  obtain ⟨outcome, f, hrun, hpost⟩ := h
  exact ⟨outcome, f, hrun, himp outcome f hpost⟩

/-- What leaves the emitter as it is adds an empty piece. The outcome may be a
    failure. -/
theorem of_runFrom_eq {outcome : Except (Failure ValueError) α}
    (hrun : action.runFrom (emitter.emitting builder) = (outcome, emitter.emitting builder)) (h : post outcome .empty) :
    emitter.Adds builder action post := by
  refine ⟨outcome, .empty, ?_, h⟩
  rw [FunctionBuilder.extend_empty]
  exact hrun

theorem pure {value : α} (h : post (.ok value) .empty) : emitter.Adds builder (pure value) post := of_runFrom_eq rfl h

theorem fail {cause : ValueError} (h : post (.error (.error cause)) .empty) :
    emitter.Adds builder (Stateful.fail cause) post :=
  of_runFrom_eq rfl h

theorem of_moves (h : Stateful.Moves Grows action) : emitter.Adds builder action fun _ _ => True := by
  obtain ⟨f, hafter, -⟩ := (grows_iff rfl).mp (h (emitter.emitting builder))
  exact ⟨_, f, Prod.ext rfl hafter, trivial⟩

/-- One action after another adds one piece after another. If the first one
    fails, its piece is all. -/
theorem bind {next : α → EmitterM β} {post' : Except (Failure ValueError) β → Fragment → Prop}
    (h : emitter.Adds builder action post)
    (hfails : ∀ failure f, post (.error failure) f → post' (.error failure) f)
    (hnext : ∀ value f, post (.ok value) f →
      emitter.Adds (builder.extend f) (next value) fun outcome g => post' outcome (f.append g)) :
    emitter.Adds builder (action >>= next) post' := by
  obtain ⟨_ | value, f, hrun, hpost⟩ := h
  · exact ⟨_, f, Stateful.runFrom_bind_of_error hrun next, hfails _ f hpost⟩
  · obtain ⟨outcome, g, hrun', hpost'⟩ := hnext value f hpost
    refine ⟨outcome, f.append g, ?_, hpost'⟩
    rw [Stateful.runFrom_bind_of_ok hrun, hrun', FunctionBuilder.extend_extend]

/-- What only computes adds nothing. If it fails, nothing is added afterwards
    either. -/
theorem lift_bind {m : Type → Type} [MonadLiftT m (Except (Failure ValueError))] {x : m α} {next : α → EmitterM β}
    {post' : Except (Failure ValueError) β → Fragment → Prop} (hfails : ∀ failure, post' (.error failure) .empty)
    (hnext : ∀ value, (liftM x : Outcome α) = .ok value → emitter.Adds builder (next value) post') :
    emitter.Adds builder (liftM x >>= next) post' := by
  cases hx : (liftM x : Outcome α) with
  | error failure =>
    refine of_runFrom_eq ?_ (hfails failure)
    rw [Stateful.runFrom_bind, Stateful.runFrom_liftM, hx]
  | ok value =>
    obtain ⟨outcome, g, hrun, hpost⟩ := hnext value hx
    refine ⟨outcome, g, ?_, hpost⟩
    rw [Stateful.runFrom_bind, Stateful.runFrom_liftM, hx]
    exact hrun

/-- Making something of a result adds nothing more. -/
theorem map {k : α → β} {post' : Except (Failure ValueError) β → Fragment → Prop}
    (h : emitter.Adds builder action fun outcome f => post' (outcome.map k) f) :
    emitter.Adds builder (do return k (← action)) post' := by
  refine .bind h (fun failure f hpost => hpost) fun value f hpost => .pure ?_
  rw [Fragment.append_empty]
  exact hpost

theorem get_bind {next : Emitter → EmitterM α} (h : emitter.Adds builder (next (emitter.emitting builder)) post) :
    emitter.Adds builder (get >>= next) post := h

/-- Asking for the function in progress adds nothing to it. It is known to be in
    progress. -/
theorem builder_bind {next : FunctionBuilder → EmitterM α} (h : emitter.Adds builder (next builder) post) :
    emitter.Adds builder (Emitter.builder >>= next) post := by
  obtain ⟨outcome, f, hrun, hpost⟩ := h
  refine ⟨outcome, f, ?_, hpost⟩
  rw [Stateful.runFrom_bind_of_ok (runFrom_builder rfl)]
  exact hrun

/-- Storing an extended builder adds the extension, before whatever comes
    next. -/
theorem setBuilder_bind {f : Fragment} {next : Unit → EmitterM α}
    (h : emitter.Adds (builder.extend f) (next ()) fun outcome g => post outcome (f.append g)) :
    emitter.Adds builder (setBuilder (builder.extend f) >>= next) post := by
  obtain ⟨outcome, g, hrun, hpost⟩ := h
  refine ⟨outcome, f.append g, ?_, hpost⟩
  rw [Stateful.runFrom_bind_of_ok (runFrom_setBuilder _ _), ← FunctionBuilder.extend_extend]
  exact hrun

/-- An instruction without a result is added as it is. It takes no register. -/
theorem setBuilder_emit_bind {instruction : Instruction} {next : Unit → EmitterM α} (h : emitter.Adds
      (builder.extend { code := [instruction] }) (next ()) fun outcome f =>
        post outcome (.append { code := [instruction] } f)) :
    emitter.Adds builder (setBuilder (builder.emit instruction) >>= next) post := by
  rw [FunctionBuilder.emit_eq_extend]
  exact setBuilder_bind h

/-- Storing a builder with one more instruction adds the piece of this
    instruction. -/
theorem setBuilder_emit {instruction : Instruction} {post : Except (Failure ValueError) Unit → Fragment → Prop}
    (h : post (.ok ()) { code := [instruction] }) : emitter.Adds builder (setBuilder (builder.emit instruction)) post := by
  rw [← bind_pure (setBuilder (builder.emit instruction))]
  refine setBuilder_emit_bind (.pure ?_)
  rw [Fragment.append_empty]
  exact h

/-- An instruction with a result takes the next register for it. -/
theorem emitWithOutput_bind {instruction : RegisterId → Instruction} {next : RegisterId → EmitterM α} (h : emitter.Adds
      (builder.extend { code := [instruction ⟨builder.nextRegister⟩], registers := 1 }) (next ⟨builder.nextRegister⟩)
      fun outcome f => post outcome (.append { code := [instruction ⟨builder.nextRegister⟩], registers := 1 } f)) :
    emitter.Adds builder (Emitter.emitWithOutput instruction >>= next) post := by
  have hrun : (Emitter.emitWithOutput instruction).runFrom (emitter.emitting builder) = (.ok ⟨builder.nextRegister⟩,
      emitter.emitting (builder.extend { code := [instruction ⟨builder.nextRegister⟩], registers := 1 })) := by
    unfold Emitter.emitWithOutput
    rw [Stateful.runFrom_bind_of_ok (runFrom_builder rfl), FunctionBuilder.newRegister_eq_extend]
    dsimp only
    rw [Stateful.runFrom_bind_of_ok (runFrom_setBuilder _ _), FunctionBuilder.emit_eq_extend,
      FunctionBuilder.extend_extend]
    rfl
  obtain ⟨outcome, f, hnext, hpost⟩ := h
  refine ⟨outcome, _, ?_, hpost⟩
  rw [Stateful.runFrom_bind_of_ok hrun, hnext, FunctionBuilder.extend_extend]

/-- What has been added to an open block is as described. This leads from a
    statement about all ways of adding to a single run. -/
theorem of_runFrom {outcome : Except (Failure ValueError) α} {f : Fragment} (hblocks : builder.blocks ≠ [])
    (hrun : action.runFrom (emitter.emitting builder) = (outcome, emitter.emitting (builder.extend f)))
    (h : emitter.Adds builder action post) : post outcome f := by
  obtain ⟨outcome', g, hrun', hpost⟩ := h
  rw [hrun, Prod.mk.injEq] at hrun'
  obtain ⟨rfl, heq⟩ := hrun'
  rw [FunctionBuilder.extend_injective hblocks (Option.some.inj (congrArg current heq))]
  exact hpost

end Adds

end Emitter

/-- Storage of a function's own is one more buffer that spans the layout, and no
    instruction. -/
theorem Emit.adds_allocate (emitter : Emitter) (builder : FunctionBuilder) (dtype : DType) (layout : Layout) :
    emitter.Adds builder (allocate dtype layout) fun outcome f => f.code = [] ∧ f.registers = 0 ∧
      ∀ value, outcome = .ok value → ∃ length, layout.memorySize = .ok length ∧
        value = .emittedBuffer dtype layout ⟨builder.buffers.size⟩ ∧
          f.buffers = [⟨⟨builder.buffers.size⟩, dtype, length, .own⟩] := by
  unfold allocate
  refine .get_bind (.builder_bind ?_)
  dsimp only
  split
  · exact .fail ⟨rfl, rfl, fun _ heq => nomatch heq⟩
  · refine .lift_bind (fun _ => ⟨rfl, rfl, fun _ heq => nomatch heq⟩) fun _ _ => ?_
    refine .lift_bind (fun _ => ⟨rfl, rfl, fun _ heq => nomatch heq⟩) fun length hlength => ?_
    refine .lift_bind (fun _ => ⟨rfl, rfl, fun _ heq => nomatch heq⟩) fun _ _ => ?_
    refine .lift_bind (fun _ => ⟨rfl, rfl, fun _ heq => nomatch heq⟩) fun _ _ => ?_
    split
    · exact .fail ⟨rfl, rfl, fun _ heq => nomatch heq⟩
    · rw [FunctionBuilder.newBuffer_eq_extend]
      refine .setBuilder_bind (.pure ⟨rfl, rfl, ?_⟩)
      rintro _ ⟨⟩
      exact ⟨length, liftM_fault_eq_ok_iff.mp hlength, rfl, rfl⟩

end StagedArrays
