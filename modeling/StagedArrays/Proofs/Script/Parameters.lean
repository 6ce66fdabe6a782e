import StagedArrays.Proofs.Emission.Parameters
import StagedArrays.Proofs.Script.Growth

namespace StagedArrays

/-- The register that a parameter is bound to. -/
def ParameterBinding.register? : ParameterBinding → Option RegisterId
  | register id => some id
  | buffer _ => none

namespace FunctionBuilder

/-- How one parameter is bound: an immediate to the next register, storage to
    the next buffer. -/
inductive Binds (index : Nat) (type : ValueType) (builder : FunctionBuilder) : Value → FunctionBuilder → Prop where
  | register (level_eq : type.pointerLevel = 0) (rank_eq : type.layout.rank = 0) :
      Binds index type builder (.register type.dtype ⟨builder.nextRegister⟩)
        { builder with
          nextRegister := builder.nextRegister + 1
          bindings := builder.bindings.push (.register ⟨builder.nextRegister⟩) }
  | buffer {size : Nat} (level_ne : type.pointerLevel ≠ 0) (size_eq : type.layout.memorySize = .ok size) :
      Binds index type builder (.emittedBuffer type.dtype type.layout ⟨builder.buffers.size⟩)
        { builder with
          buffers := builder.buffers.push ⟨⟨builder.buffers.size⟩, type.dtype, size, .parameter index⟩
          bindings := builder.bindings.push (.buffer ⟨builder.buffers.size⟩) }

/-- Parameters are bound one after another. Each takes the next register or the
    next buffer. -/
theorem exists_binds {index : Nat} {type : ValueType} {types : List ValueType} {builder after : FunctionBuilder}
    {values : List Value} (h : bindParameters index (type :: types) builder = .ok (values, after)) :
    ∃ value next rest, builder.Binds index type value next ∧
      bindParameters (index + 1) types next = .ok (rest, after) ∧ values = value :: rest := by
  rw [bindParameters] at h
  split at h
  · next hlevel =>
    obtain ⟨u, hrank, h⟩ := bind_eq_ok_iff.mp h
    obtain ⟨_, hbinds, h⟩ := bind_eq_ok_iff.mp h
    cases hbinds
    obtain ⟨⟨rest, final⟩, hrest, h⟩ := bind_eq_ok_iff.mp h
    cases h
    exact ⟨_, _, rest, .register hlevel (Layout.ensureRank_eq_ok.mp (liftM_layoutError_eq_ok_iff.mp hrank)), hrest, rfl⟩
  · next hlevel =>
    obtain ⟨size, hsize, h⟩ := bind_eq_ok_iff.mp h
    obtain ⟨_, hbinds, h⟩ := bind_eq_ok_iff.mp h
    cases hbinds
    obtain ⟨⟨rest, final⟩, hrest, h⟩ := bind_eq_ok_iff.mp h
    cases h
    exact ⟨_, _, rest, .buffer hlevel (liftM_fault_eq_ok_iff.mp hsize), hrest, rfl⟩

variable {index : Nat} {type : ValueType} {types : List ValueType} {builder after : FunctionBuilder} {value : Value}
  {values : List Value}

theorem Binds.blocks_eq (h : builder.Binds index type value after) : after.blocks = builder.blocks := by cases h <;> rfl

/-- Binding parameters opens no block. -/
theorem blocks_bindParameters (h : bindParameters index types builder = .ok (values, after)) :
    after.blocks = builder.blocks := by
  induction types generalizing index builder values with
  | nil => cases h; rfl
  | cons type types ih =>
    obtain ⟨value, next, rest, hbinds, hrest, rfl⟩ := exists_binds h
    exact (ih hrest).trans hbinds.blocks_eq

theorem blocks_start {function : FunctionDeclaration} {moduleName : String}
    (h : start function moduleName = .ok (values, builder)) : builder.blocks = [#[]] :=
  blocks_bindParameters h

/-- Binding parameters leaves the declared ones alone. -/
theorem parameters_bindParameters (h : bindParameters index types builder = .ok (values, after)) :
    after.parameters = builder.parameters := by
  induction types generalizing index builder values with
  | nil => cases h; rfl
  | cons type types ih =>
    obtain ⟨value, next, rest, hbinds, hrest, rfl⟩ := exists_binds h
    rw [ih hrest]
    cases hbinds <;> rfl

/-- A function that has been started has the parameters that are declared. -/
theorem parameters_start {function : FunctionDeclaration} {moduleName : String}
    (h : start function moduleName = .ok (values, builder)) : builder.parameters = function.parameters :=
  parameters_bindParameters h

/-- Parameters have taken all registers so far, in order, and all buffers, which
    are numbered and not the function's own. -/
structure Entering (builder : FunctionBuilder) : Prop where
  registers_eq : builder.bindings.toList.filterMap ParameterBinding.register? = loopRegisters 0 builder.nextRegister
  id_eq : ∀ (k : Nat) (declaration : BufferDeclaration), builder.buffers.toList[k]? = some declaration →
    declaration.id = ⟨k⟩
  isLocal_eq : ∀ declaration ∈ builder.buffers.toList, declaration.isLocal = false

/-- A parameter takes the next register or the next buffer, and the buffer is
    the caller's. -/
theorem Binds.entering (h : builder.Binds index type value after) (hentering : builder.Entering) : after.Entering := by
  obtain ⟨hregisters, hid, hlocal⟩ := hentering
  cases h with
  | register =>
    refine ⟨?_, hid, hlocal⟩
    have hnext := loopRegisters_append 0 builder.nextRegister 1
    rw [Nat.zero_add] at hnext
    simp only [Array.toList_push, List.filterMap_append, hregisters]
    exact hnext
  | buffer =>
    refine ⟨?_, fun k declaration hget => ?_, fun declaration hmem => ?_⟩
    · simp only [Array.toList_push, List.filterMap_append, hregisters]
      exact List.append_nil _
    · rw [Array.toList_push, List.getElem?_append] at hget
      split at hget
      · exact hid k declaration hget
      · next hge =>
        obtain ⟨hlt, rfl⟩ := List.getElem?_eq_some_iff.mp hget
        rw [List.length_singleton] at hlt
        simp only [Array.length_toList] at hge hlt
        simp
        omega
    · rw [Array.toList_push, List.mem_append, List.mem_singleton] at hmem
      rcases hmem with hmem | rfl
      · exact hlocal declaration hmem
      · rfl

/-- After all parameters are bound, registers and buffers are just theirs. The
    body has not recorded anything yet. -/
theorem entering_bindParameters (h : bindParameters index types builder = .ok (values, after))
    (hentering : builder.Entering) : after.Entering := by
  induction types generalizing index builder values with
  | nil => cases h; exact hentering
  | cons type types ih =>
    obtain ⟨value, next, rest, hbinds, hrest, rfl⟩ := exists_binds h
    exact ih hrest (hbinds.entering hentering)

/-- A function that has been started has bound its parameters. -/
theorem entering_start {function : FunctionDeclaration} {moduleName : String}
    (h : start function moduleName = .ok (values, builder)) : builder.Entering := by
  refine entering_bindParameters h ⟨rfl, ?_, ?_⟩
  · simp
  · simp

/-- Storage of the function's own comes after that of its parameters. It is
    numbered on from there. -/
theorem Entering.le_of_isLocal {f : Fragment} {config : EmitterConfig} (h : builder.Entering)
    (horderly : f.Orderly config builder) {declaration : BufferDeclaration}
    (hmem : declaration ∈ (builder.extend f).buffers.toList) (hlocal : declaration.isLocal = true) :
    builder.buffers.size ≤ declaration.id.index := by
  rw [buffers_extend, Array.toList_append, List.mem_append] at hmem
  rcases hmem with hmem | hmem
  · rw [h.isLocal_eq declaration hmem] at hlocal
    cases hlocal
  · obtain ⟨k, hget⟩ := List.mem_iff_getElem?.mp hmem
    rw [horderly.id_eq k declaration hget]
    exact Nat.le_add_right _ _

/-- Parameters are no burden on the budget. Their storage is the caller's. -/
theorem Entering.inBudget (h : builder.Entering) (config : EmitterConfig) : builder.InBudget config := by
  have hnil : builder.localBuffers = [] := List.filter_eq_nil_iff.mpr fun declaration hmem => by
    simp [h.isLocal_eq declaration hmem]
  rw [InBudget, hnil]
  exact ⟨Nat.zero_le _, 0, rfl, Nat.zero_le _⟩

end FunctionBuilder

end StagedArrays
