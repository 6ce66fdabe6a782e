import StagedArrays.Proofs.Script.Closed
import StagedArrays.Proofs.Script.WellFormed

namespace StagedArrays

/-- The buffers that have been declared so far. -/
def FunctionBuilder.declared (builder : FunctionBuilder) : List BufferId :=
  builder.buffers.toList.map BufferDeclaration.id

theorem FunctionBuilder.declared_extend (builder : FunctionBuilder) (f : Fragment) :
    (builder.extend f).declared = builder.declared ++ f.buffers.map BufferDeclaration.id := by
  simp [declared]

theorem FunctionBuilder.declared_opened (builder : FunctionBuilder) (count : Nat) :
    (builder.opened count).declared = builder.declared := by
  rw [declared, declared, buffers_opened]

theorem FunctionBuilder.registers_loopCoordinates (builder : FunctionBuilder) (count : Nat) :
    (builder.loopCoordinates count).flatMap (·.value.registers) = loopRegisters builder.nextRegister count := by
  rw [loopCoordinates, List.flatMap_map]
  exact List.flatMap_singleton' _

namespace Scope

/-- Whether what is good has been assigned and declared. It may be less than
    what has been. -/
structure Sound (scope : Scope) (builder : FunctionBuilder) (assigned : List RegisterId) : Prop where
  blocks_ne_nil : scope.blocks ≠ []
  registers_subset : scope.blocks.flatten ⊆ assigned
  buffers_subset : scope.buffers ⊆ builder.declared

variable {scope : Scope} {builder : FunctionBuilder} {assigned assigned' : List RegisterId} {value : Value}

theorem Sound.within (h : scope.Sound builder assigned) (hcovers : scope.Covers value) :
    value.Within builder.declared assigned :=
  hcovers.mono h.buffers_subset h.registers_subset

/-- What is good stays so as more is recorded. Nothing is ever unassigned. -/
theorem Sound.extend (h : scope.Sound builder assigned) (f : Fragment) (hassigned : assigned ⊆ assigned') :
    scope.Sound (builder.extend f) assigned' := by
  refine ⟨h.blocks_ne_nil, List.Subset.trans h.registers_subset hassigned, ?_⟩
  rw [FunctionBuilder.declared_extend]
  exact List.Subset.trans h.buffers_subset (List.subset_append_left _ _)

/-- A value that is made up of what is in scope joins the scope. -/
theorem Sound.receive (h : scope.Sound builder assigned) (hvalue : value.Within builder.declared assigned) :
    (scope.receive value).Sound builder assigned := by
  obtain ⟨blocks, buffers⟩ := scope
  cases blocks with
  | nil => exact (h.blocks_ne_nil rfl).elim
  | cons block outer =>
    refine ⟨List.cons_ne_nil _ _, ?_, List.append_subset.mpr ⟨hvalue.2, h.buffers_subset⟩⟩
    have hregisters := h.registers_subset
    simp only [List.flatten_cons] at hregisters
    simp only [Scope.receive, List.flatten_cons, List.append_assoc]
    exact List.append_subset.mpr ⟨hvalue.1, hregisters⟩

theorem tail_blocks_receive (h : scope.blocks ≠ []) (value : Value) :
    (scope.receive value).blocks.tail = scope.blocks.tail := by
  obtain ⟨block, outer, heq⟩ := List.exists_cons_of_ne_nil h
  simp [receive, heq]

end Scope

/-- Loops around closed code are closed if the code may use the counters. The
    counters are assigned before each pass. -/
theorem blockClosed_nest {declared : List BufferId} {assigned : List RegisterId} {f : Fragment} {first : Nat}
    {extents : List Nat}
    (h : blockClosed declared (FunctionBuilder.loopRegisters first extents.length ++ assigned) f.code) :
    blockClosed declared assigned (f.nest first extents).code := by
  induction extents generalizing first assigned with
  | nil => exact h
  | cons extent extents ih =>
    refine ⟨ih (blockClosed_mono (List.Subset.refl _) ?_ h), trivial⟩
    intro register hmem
    simp only [FunctionBuilder.loopRegisters, List.length_cons, List.range'_succ, List.map_cons, List.cons_append,
      List.mem_cons, List.mem_append] at hmem ⊢
    tauto

namespace Emission

variable {emitter : Emitter} {builder : FunctionBuilder} {events : List EmitterEvent} {f : Fragment} {scope : Scope}
  {assigned : List RegisterId}

/-- What is recorded while only what is good is used is closed, and what is good
    after it has been assigned and declared by it. Loops leave what they hand
    out to their bodies behind. -/
theorem closed (h : Emission emitter builder events f) (hblocks : builder.blocks ≠ [])
    (hsound : scope.Sound builder assigned) (hadmits : scope.AdmitsAll events) :
    blockClosed (builder.extend f).declared assigned f.code ∧
      (events.foldl Scope.after scope).Sound (builder.extend f) (assignedBy assigned f.code) ∧
      (events.foldl Scope.after scope).blocks.tail = scope.blocks.tail := by
  induction h generalizing scope assigned with
  | nil =>
    rw [FunctionBuilder.extend_empty]
    exact ⟨trivial, hsound, rfl⟩
  | @operation builder operation f code outcome hrun _ _ _ =>
    have hwithin : ∀ value ∈ operation.values, value.Within builder.declared assigned := fun value hmem =>
      hsound.within (hadmits.1 value hmem)
    obtain ⟨hclosed, hresult⟩ := (operation.adds_closed hwithin).of_runFrom hblocks hrun
    have hsound' := hsound.extend f (subset_assignedBy f.code)
    refine ⟨blockClosed_mono ?_ (List.Subset.refl _) hclosed, ?_⟩
    · rw [FunctionBuilder.declared_extend]
      exact List.subset_append_left _ _
    · cases outcome with
      | error failure => exact ⟨hsound', rfl⟩
      | ok result =>
        cases result with
        | none => exact ⟨hsound', rfl⟩
        | some value =>
          refine ⟨hsound'.receive ((hresult value rfl).mono ?_ (List.Subset.refl _)),
            Scope.tail_blocks_receive hsound.blocks_ne_nil value⟩
          rw [FunctionBuilder.declared_extend]
          intro id hmem
          rw [List.mem_append] at hmem ⊢
          exact hmem.symm
  | @loops builder extents events f _ ih =>
    have hdeclared : (builder.extend (f.nest builder.nextRegister extents)).declared =
        ((builder.opened extents.length).extend f).declared := by
      rw [FunctionBuilder.declared_extend, FunctionBuilder.declared_extend, FunctionBuilder.declared_opened,
        Fragment.buffers_nest]
    have hinner : (scope.after (.opened (builder.loopCoordinates extents.length))).Sound
        (builder.opened extents.length) (FunctionBuilder.loopRegisters builder.nextRegister extents.length ++ assigned) := by
      refine ⟨List.cons_ne_nil _ _, ?_, ?_⟩
      · rw [Scope.after, FunctionBuilder.registers_loopCoordinates, List.flatten_cons]
        exact append_subset_append _ hsound.registers_subset
      · rw [FunctionBuilder.declared_opened]
        exact hsound.buffers_subset
    obtain ⟨hadmits, -⟩ := Scope.admitsAll_append.mp hadmits.2
    obtain ⟨hclosed, hsound', htail⟩ := ih (FunctionBuilder.blocks_opened_ne_nil hblocks _) hinner hadmits
    have hblocks' : (events.foldl Scope.after (scope.after (.opened (builder.loopCoordinates extents.length)))).blocks.tail =
        scope.blocks := htail
    rw [List.foldl_cons, List.foldl_append, hdeclared]
    refine ⟨blockClosed_nest hclosed, ⟨?_, ?_, ?_⟩, ?_⟩
    · change List.tail _ ≠ []
      rw [hblocks']
      exact hsound.blocks_ne_nil
    · change List.flatten (List.tail _) ⊆ _
      rw [hblocks']
      exact List.Subset.trans hsound.registers_subset (subset_assignedBy _)
    · rw [hdeclared]
      exact hsound'.buffers_subset
    · change List.tail (List.tail _) = _
      rw [hblocks']
  | @append builder events more f g _ _ ih ih' =>
    obtain ⟨hadmits, hrest⟩ := Scope.admitsAll_append.mp hadmits
    obtain ⟨hclosed, hsound', htail⟩ := ih hblocks hsound hadmits
    obtain ⟨hclosed', hsound'', htail'⟩ := ih' (FunctionBuilder.blocks_extend_ne_nil hblocks f) hsound' hrest
    rw [FunctionBuilder.extend_extend] at hclosed' hsound''
    rw [List.foldl_append, Fragment.append, assignedBy_append, blockClosed_append]
    refine ⟨⟨blockClosed_mono ?_ (List.Subset.refl _) hclosed, hclosed'⟩, hsound'', htail'.trans htail⟩
    have hdeclared := FunctionBuilder.declared_extend (builder.extend f) g
    rw [FunctionBuilder.extend_extend] at hdeclared
    change _ ⊆ (builder.extend (f.append g)).declared
    rw [hdeclared]
    exact List.subset_append_left _ _

end Emission

namespace FunctionBuilder

/-- The registers that parameters have been bound to. -/
def assigned (builder : FunctionBuilder) : List RegisterId :=
  builder.bindings.toList.filterMap ParameterBinding.register?

variable {index : Nat} {type : ValueType} {types : List ValueType} {builder after : FunctionBuilder} {value : Value}
  {values : List Value}

theorem Binds.subset (h : builder.Binds index type value after) :
    builder.declared ⊆ after.declared ∧ builder.assigned ⊆ after.assigned := by
  cases h <;> simp [declared, assigned, ParameterBinding.register?]

theorem Binds.within (h : builder.Binds index type value after) : value.Within after.declared after.assigned := by
  cases h <;> simp [Value.Within, Value.registers, Value.buffers, Value.register, Value.emittedBuffer, declared, assigned,
    ParameterBinding.register?, Operand.registers]

/-- Parameters only add to what is declared and assigned. -/
theorem subset_of_bindParameters (h : bindParameters index types builder = .ok (values, after)) :
    builder.declared ⊆ after.declared ∧ builder.assigned ⊆ after.assigned := by
  induction types generalizing index builder values with
  | nil =>
    cases h
    exact ⟨List.Subset.refl _, List.Subset.refl _⟩
  | cons type types ih =>
    obtain ⟨value, next, rest, hbinds, hrest, rfl⟩ := exists_binds h
    exact ⟨List.Subset.trans hbinds.subset.1 (ih hrest).1, List.Subset.trans hbinds.subset.2 (ih hrest).2⟩

/-- Parameters are known by what they have been bound to. -/
theorem within_of_bindParameters (h : bindParameters index types builder = .ok (values, after)) :
    ∀ value ∈ values, value.Within after.declared after.assigned := by
  induction types generalizing index builder values with
  | nil =>
    cases h
    exact fun _ hmem => nomatch hmem
  | cons type types ih =>
    obtain ⟨value, next, rest, hbinds, hrest, rfl⟩ := exists_binds h
    obtain ⟨hdeclared, hassigned⟩ := subset_of_bindParameters hrest
    exact List.forall_mem_cons.mpr ⟨hbinds.within.mono hdeclared hassigned, ih hrest⟩

end FunctionBuilder

/-- The body of a function is given what its parameters have been bound to. All
    of it is assigned on entry. -/
theorem Scope.sound_ofParameters {builder : FunctionBuilder} {assigned : List RegisterId} {values : List Value}
    (h : ∀ value ∈ values, value.Within builder.declared assigned) : (ofParameters values).Sound builder assigned := by
  have hempty : (⟨[[]], []⟩ : Scope).Sound builder assigned := by
    refine ⟨List.cons_ne_nil _ _, ?_, List.nil_subset _⟩
    simp
  unfold ofParameters
  revert hempty
  generalize (⟨[[]], []⟩ : Scope) = scope
  intro hscope
  induction values generalizing scope with
  | nil => exact hscope
  | cons value values ih =>
    obtain ⟨hvalue, hrest⟩ := List.forall_mem_cons.mp h
    exact ih hrest _ (hscope.receive hvalue)

/-- Whether a function uses only buffers that it declares, and reads only
    registers that have been assigned on every path. -/
def EmittedFunction.Closed (function : EmittedFunction) : Prop :=
  let declared := function.buffers.map BufferDeclaration.id
  let assigned := function.bindings.filterMap ParameterBinding.register?
  blockClosed declared assigned function.body ∧
    ∀ operand, function.result = some operand → operand.registers ⊆ assignedBy assigned function.body

namespace Emitter

variable {emitter : Emitter} {function : EmittedFunction} {transcript : Transcript}

/-- A function whose body uses only what is good is closed. This includes what
    it returns. -/
theorem Recorded.closed (h : emitter.Recorded function transcript) (hscoped : transcript.Scoped) : function.Closed := by
  obtain ⟨hstart, hbody, hresult, -, -⟩ := h
  next declared parameters builder events f g result operand =>
  have hblocks : builder.blocks ≠ [] := by simp [FunctionBuilder.blocks_start hstart]
  have hsound : (Scope.ofParameters parameters).Sound builder builder.assigned :=
    Scope.sound_ofParameters (FunctionBuilder.within_of_bindParameters hstart)
  obtain ⟨hevents, hreturned, -⟩ := Scope.admitsAll_append.mp hscoped
  obtain ⟨hclosed, hsound', -⟩ := hbody.closed hblocks hsound hevents
  rw [← FunctionBuilder.extend_extend] at hresult
  obtain ⟨hclosed', hoperand⟩ := (closes_resultOperand declared fun value hmem =>
    hsound'.within (hreturned value hmem)).of_runFrom (FunctionBuilder.blocks_extend_ne_nil hblocks f) hresult
  have hdeclared := FunctionBuilder.declared_extend (builder.extend f) g
  rw [FunctionBuilder.extend_extend] at hdeclared
  have hsubset : (builder.extend f).declared ⊆ (builder.extend (f.append g)).declared := by
    rw [hdeclared]
    exact List.subset_append_left _ _
  refine ⟨blockClosed_append.mpr ⟨?_, ?_⟩, fun found heq => ?_⟩
  · exact blockClosed_mono hsubset (List.Subset.refl _) hclosed
  · exact blockClosed_mono hsubset (List.Subset.refl _) hclosed'
  · change _ ⊆ assignedBy builder.assigned (f.code ++ g.code)
    rw [assignedBy_append]
    exact hoperand operand rfl found heq

/-- What is recorded in an event touches and hands over only buffers of the
    values that the event works on. -/
theorem Recorded.buffers_subset (h : emitter.Recorded function transcript) {event : EmitterEvent}
    (hmem : event ∈ transcript.events) {instruction : Instruction} (hcode : instruction ∈ event.code) :
    instruction.buffers ⊆ event.values.flatMap Value.buffers := by
  obtain ⟨hstart, hbody, hresult, -, -⟩ := h
  next declared parameters builder events f g result operand =>
  have hblocks : builder.blocks ≠ [] := by simp [FunctionBuilder.blocks_start hstart]
  have hwithin (value : Value) (hvalue : value ∈ event.values) :
      value.Within (event.values.flatMap Value.buffers) (event.values.flatMap Value.registers) :=
    ⟨fun _ hid => List.mem_flatMap.mpr ⟨value, hvalue, hid⟩, fun _ hid => List.mem_flatMap.mpr ⟨value, hvalue, hid⟩⟩
  rcases List.mem_append.mp hmem with hmem | hmem
  · cases event with
    | opened | closed => cases hcode
    | returned => exact (hbody.returned_notMem hmem).elim
    | performed operation outcome code =>
      obtain ⟨current, piece, hopen, rfl, hrun⟩ := hbody.exists_of_performed hblocks hmem
      exact buffers_subset_of_blockClosed ((operation.adds_closed hwithin).of_runFrom hopen hrun).1 hcode
  · cases List.mem_singleton.mp hmem
    rw [← FunctionBuilder.extend_extend] at hresult
    exact buffers_subset_of_blockClosed ((closes_resultOperand declared hwithin).of_runFrom
      (FunctionBuilder.blocks_extend_ne_nil hblocks f) hresult).1 hcode

end Emitter

end StagedArrays
