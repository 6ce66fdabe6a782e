import StagedArrays.Code.Instruction

namespace StagedArrays

mutual

/-- Whether two instructions are the same, immediates word for word. It goes
    through nested blocks, for which no instance can be derived. -/
def Instruction.equal : Instruction → Instruction → Bool
  | .binary r op a b, .binary r' op' a' b' => r = r' && op = op' && a = a' && b = b'
  | .load r buffer i, .load r' buffer' i' => r = r' && buffer = buffer' && i = i'
  | .store buffer i x, .store buffer' i' x' => buffer = buffer' && i = i' && x = x'
  | .loop r n body, .loop r' n' body' => r = r' && n = n' && blockEqual body body'
  | .call s args r, .call s' args' r' => s = s' && args = args' && r = r'
  | _, _ => false

/-- Whether two blocks are the same, instruction by instruction and of one
    length. -/
def blockEqual : List Instruction → List Instruction → Bool
  | [], [] => true
  | i :: is, j :: js => i.equal j && blockEqual is js
  | _, _ => false

end

mutual

/-- The comparison of instructions decides their equality. By recursion on the
    bodies of loops, together with the one of blocks. -/
theorem Instruction.equal_iff : (i j : Instruction) → (i.equal j = true ↔ i = j)
  | .loop r n body, .loop r' n' body' => by simp [Instruction.equal, blockEqual_iff body body', and_assoc]
  | .loop _ _ _, .binary .. | .loop _ _ _, .load .. | .loop _ _ _, .store .. | .loop _ _ _, .call .. => by
    simp [Instruction.equal]
  | .binary .., j => by cases j <;> simp [Instruction.equal, and_assoc]
  | .load .., j => by cases j <;> simp [Instruction.equal, and_assoc]
  | .store .., j => by cases j <;> simp [Instruction.equal, and_assoc]
  | .call .., j => by cases j <;> simp [Instruction.equal, and_assoc]

/-- The comparison of blocks decides their equality. By recursion on the code,
    together with the one of instructions. -/
theorem blockEqual_iff : (is js : List Instruction) → (blockEqual is js = true ↔ is = js)
  | [], js => by cases js <;> simp [blockEqual]
  | _ :: _, [] => by simp [blockEqual]
  | i :: is, j :: js => by simp [blockEqual, Instruction.equal_iff i j, blockEqual_iff is js]

end

instance : DecidableEq Instruction := fun i j => decidable_of_iff (i.equal j = true) (i.equal_iff j)

deriving instance DecidableEq for EmittedFunction

deriving instance DecidableEq for EmittedModule

end StagedArrays
