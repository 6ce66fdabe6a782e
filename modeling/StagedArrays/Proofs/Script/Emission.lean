import StagedArrays.Proofs.Script.Growth

namespace StagedArrays

namespace FunctionBuilder

/-- The coordinates that the body of a nest of loops is given. They are the
    registers that the loops count in. -/
def loopCoordinates (builder : FunctionBuilder) (count : Nat) : List Scalar :=
  (loopRegisters builder.nextRegister count).map (Scalar.ofRegister .i64)

variable {builder : FunctionBuilder}

theorem length_blocks_extend (builder : FunctionBuilder) (f : Fragment) :
    (builder.extend f).blocks.length = builder.blocks.length := by
  cases hblocks : builder.blocks <;> simp [extend, hblocks]

theorem blocks_extend_ne_nil (h : builder.blocks ≠ []) (f : Fragment) : (builder.extend f).blocks ≠ [] := by
  rw [← List.length_pos_iff, length_blocks_extend, List.length_pos_iff]
  exact h

theorem blocks_opened_ne_nil (h : builder.blocks ≠ []) (count : Nat) : (builder.opened count).blocks ≠ [] := by
  induction count generalizing builder with
  | zero => exact h
  | succ count ih => exact ih (List.cons_ne_nil _ _)

end FunctionBuilder

/-- What an emitter records while the function in progress goes through events:
    operations record pieces, and what happens between the ends of a nest of
    loops is recorded inside it. -/
inductive Emission (emitter : Emitter) : FunctionBuilder → List EmitterEvent → Fragment → Prop where
  | nil (builder : FunctionBuilder) : Emission emitter builder [] .empty
  | operation {builder : FunctionBuilder} {operation : Operation} {f : Fragment} {code : List Instruction}
      {outcome : Except (Failure ValueError) (Option Value)}
      (run_eq : operation.emit.runFrom (emitter.emitting builder) = (outcome, emitter.emitting (builder.extend f)))
      (orderly : f.Orderly emitter.config builder) (steps_eq : blockSteps f.code = f.code)
      (code_eq : builder.blocks ≠ [] → code = f.code) :
      Emission emitter builder [.performed operation outcome code] f
  | loops {builder : FunctionBuilder} {extents : List Nat} {events : List EmitterEvent} {f : Fragment}
      (body : Emission emitter (builder.opened extents.length) events f) :
      Emission emitter builder (.opened (builder.loopCoordinates extents.length) :: (events ++ [.closed]))
        (f.nest builder.nextRegister extents)
  | append {builder : FunctionBuilder} {events more : List EmitterEvent} {f g : Fragment}
      (first : Emission emitter builder events f) (rest : Emission emitter (builder.extend f) more g) :
      Emission emitter builder (events ++ more) (f.append g)

namespace Emitter

/-- An emitter without a function in progress. What it has recorded for good is
    the same. -/
def cleared (emitter : Emitter) : Emitter := { emitter with current := none }

/-- What becomes of an emitter while functions of others may come and go: the
    function in progress goes through events, and an emitter without one ends up
    without one. -/
def Proceeds (emitter : Emitter) (page : Page) (after : Emitter) (page' : Page) : Prop :=
  match emitter.current with
  | none => after.current = none
  | some builder => ∃ events f, Emission emitter.cleared builder events f ∧
      after = emitter.emitting (builder.extend f) ∧ page' = page.extend events

variable {emitter after final : Emitter} {page page' page'' : Page} {builder : FunctionBuilder}

theorem proceeds_of_none (hcurrent : emitter.current = none) (hafter : after.current = none) :
    emitter.Proceeds page after page' := by
  rwa [Proceeds, hcurrent]

theorem proceeds_iff (hcurrent : emitter.current = some builder) : emitter.Proceeds page after page' ↔
    ∃ events f, Emission emitter.cleared builder events f ∧ after = emitter.emitting (builder.extend f) ∧
      page' = page.extend events := by
  rw [Proceeds, hcurrent]

theorem Proceeds.current_eq_none (h : emitter.Proceeds page after page') (hcurrent : emitter.current = none) :
    after.current = none := by
  rwa [Proceeds, hcurrent] at h

/-- Nothing is recorded for good while a function is in progress. No other
    function can be started meanwhile. -/
theorem Proceeds.eq_of_some (h : emitter.Proceeds page after page') (hcurrent : emitter.current = some builder) :
    after.functions = emitter.functions ∧ after.settings = emitter.settings ∧ page'.recorded = page.recorded := by
  obtain ⟨events, f, -, rfl, rfl⟩ := (proceeds_iff hcurrent).mp h
  exact ⟨rfl, rfl, rfl⟩

/-- A function that is in progress stays so. Others cannot be started
    meanwhile. -/
theorem Proceeds.isSome_current (h : emitter.Proceeds page after page') (hcurrent : emitter.current = some builder) :
    after.current ≠ none := by
  obtain ⟨events, f, -, rfl, -⟩ := (proceeds_iff hcurrent).mp h
  exact Option.some_ne_none _

/-- An emitter that nothing happens to proceeds by no events. -/
theorem Proceeds.refl (emitter : Emitter) (page : Page) : emitter.Proceeds page emitter page := by
  cases hcurrent : emitter.current with
  | none => exact proceeds_of_none hcurrent hcurrent
  | some builder =>
    refine (proceeds_iff hcurrent).mpr ⟨[], .empty, .nil builder, ?_, ?_⟩
    · rw [FunctionBuilder.extend_empty, emitting, ← hcurrent]
    · rw [Page.extend, List.append_nil]

/-- What an emitter goes through in two stages are the events of both, in
    order. -/
theorem Proceeds.trans (h : emitter.Proceeds page after page') (h' : after.Proceeds page' final page'') :
    emitter.Proceeds page final page'' := by
  cases hcurrent : emitter.current with
  | none => exact proceeds_of_none hcurrent (h'.current_eq_none (h.current_eq_none hcurrent))
  | some builder =>
    obtain ⟨events, f, hf, rfl, rfl⟩ := (proceeds_iff hcurrent).mp h
    obtain ⟨more, g, hg, rfl, rfl⟩ := (proceeds_iff rfl).mp h'
    refine (proceeds_iff hcurrent).mpr ⟨events ++ more, f.append g, hf.append hg, ?_, ?_⟩
    · rw [← FunctionBuilder.extend_extend]
      rfl
    · simp [Page.extend]

theorem emitting_eq (hcurrent : emitter.current = some builder) : emitter.emitting builder = emitter := by
  rw [emitting, ← hcurrent]

/-- The innermost block grows by the instructions that are recorded. Blocks
    further out wait until it is closed. -/
theorem codeUntil_extend (hcurrent : emitter.current = some builder) (hblocks : builder.blocks ≠ []) (f : Fragment) :
    emitter.codeUntil (emitter.emitting (builder.extend f)) = f.code := by
  obtain ⟨block, outer, heq⟩ := List.exists_cons_of_ne_nil hblocks
  simp [codeUntil, innermost, emitting, hcurrent, FunctionBuilder.extend, heq]

/-- An operation is an event of the function in progress. It is noted with its
    outcome and with what it has recorded. -/
theorem proceeds_perform {operation : Operation} {outcome : Except (Failure ValueError) (Option Value)}
    (hrun : operation.emit.runFrom emitter = (outcome, after)) (page : Page) :
    emitter.Proceeds page after (page.extend [.performed operation outcome (emitter.codeUntil after)]) := by
  have hgrows := operation.grows_emit emitter
  simp only [hrun] at hgrows
  cases hcurrent : emitter.current with
  | none =>
    rw [hgrows.eq_of_none hcurrent]
    exact proceeds_of_none hcurrent hcurrent
  | some builder =>
    obtain ⟨f, rfl, horderly, hsteps⟩ := (grows_iff hcurrent).mp hgrows
    refine (proceeds_iff hcurrent).mpr ⟨_, f, .operation ?_ horderly hsteps fun hblocks => ?_, rfl, rfl⟩
    · rw [← emitting_eq hcurrent] at hrun
      exact hrun
    · exact codeUntil_extend hcurrent hblocks f

end Emitter

end StagedArrays
