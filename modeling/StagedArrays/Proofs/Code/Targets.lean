import StagedArrays.Code.Run

namespace StagedArrays

mutual

/-- What an instruction calls when it is executed. A loop without a pass calls
    nothing. -/
def Instruction.targets : Instruction → List String
  | .call symbol _ _ => [symbol]
  | .loop _ extent body => if extent = 0 then [] else blockTargets body
  | .binary .. | .load .. | .store .. => []

/-- What a block calls when it is executed. Loops without passes call nothing,
    and are left out. -/
def blockTargets : List Instruction → List String
  | [] => []
  | instruction :: rest => instruction.targets ++ blockTargets rest

end

mutual

/-- What an instruction calls when it is executed is among the symbols that it
    names. A loop without passes calls nothing. -/
theorem Instruction.targets_subset : (instruction : Instruction) → instruction.targets ⊆ instruction.symbols
  | .call .. => by simp [Instruction.targets, Instruction.symbols]
  | .loop induction extent body => by
    rw [Instruction.targets, Instruction.symbols]
    split
    · exact List.nil_subset _
    · exact blockTargets_subset body
  | .binary .. | .load .. | .store .. => by simp [Instruction.targets]

/-- What a block calls is a call target of it. The converse fails where a loop
    has no passes. -/
theorem blockTargets_subset : (block : List Instruction) → blockTargets block ⊆ blockSymbols block
  | [] => by simp [blockTargets]
  | instruction :: rest => by
    rw [blockTargets, blockSymbols]
    apply List.append_subset.mpr
    exact ⟨List.subset_append_of_subset_left _ instruction.targets_subset,
      List.subset_append_of_subset_right _ (blockTargets_subset rest)⟩

end

variable {call call' : String → HostFunction}

mutual

/-- An instruction does the same whatever resolves its targets alike. By
    recursion on the code. -/
theorem Instruction.run_congr : (instruction : Instruction) → (∀ symbol ∈ instruction.targets, call symbol = call' symbol) →
    instruction.run call = instruction.run call'
  | .binary .., _ | .load .., _ | .store .., _ => by simp only [Instruction.run]
  | .loop induction extent body, h => by
    simp only [Instruction.run]
    by_cases hextent : extent = 0
    · simp only [hextent, Stateful.repeatFrom]
    · rw [Instruction.targets, if_neg hextent] at h
      rw [runBlock_congr body h]
  | .call symbol args output, h => by
    simp only [Instruction.run]
    rw [h symbol (by simp [Instruction.targets])]

/-- A block does the same whatever resolves its targets alike. By recursion on
    the code. -/
theorem runBlock_congr : (block : List Instruction) → (∀ symbol ∈ blockTargets block, call symbol = call' symbol) →
    runBlock call block = runBlock call' block
  | [], _ => by simp only [runBlock]
  | instruction :: rest, h => by
    rw [blockTargets] at h
    obtain ⟨hfirst, hrest⟩ := List.forall_mem_append.mp h
    simp only [runBlock]
    rw [instruction.run_congr hfirst, runBlock_congr rest hrest]

end

end StagedArrays
