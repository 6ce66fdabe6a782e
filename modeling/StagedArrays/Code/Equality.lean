import StagedArrays.Code.Instruction

namespace StagedArrays

namespace Operand

def same : Operand → Operand → Bool
  | constant x, constant y => x.sameNumber y
  | register a, register b => a = b
  | _, _ => false

end Operand

namespace CallArgument

def same : CallArgument → CallArgument → Bool
  | scalar a, scalar b => a.same b
  | buffer a i, buffer b j => a = b && i.same j
  | _, _ => false

/-- Equality of argument lists: of one length, and the same at each position. -/
def sameAll : List CallArgument → List CallArgument → Bool
  | [], [] => true
  | a :: as, b :: bs => a.same b && sameAll as bs
  | _, _ => false

end CallArgument

mutual

/-- Whether two instructions are the same in the sense of comparing numbers. A
    constant that is no number differs from itself. -/
def Instruction.same : Instruction → Instruction → Bool
  | .binary r op a b, .binary r' op' a' b' => r = r' && op = op' && a.same a' && b.same b'
  | .load r buffer i, .load r' buffer' i' => r = r' && buffer = buffer' && i.same i'
  | .store buffer i x, .store buffer' i' x' => buffer = buffer' && i.same i' && x.same x'
  | .loop r n body, .loop r' n' body' => r = r' && n = n' && sameBlock body body'
  | .call s args r, .call s' args' r' => s = s' && CallArgument.sameAll args args' && r = r'
  | _, _ => false

/-- Equality of blocks: of one length, and the same at each position, nested
    blocks included. -/
def sameBlock : List Instruction → List Instruction → Bool
  | [], [] => true
  | i :: is, j :: js => i.same j && sameBlock is js
  | _, _ => false

end

namespace EmittedFunction

def same (f g : EmittedFunction) : Bool :=
  f.name = g.name && f.symbol = g.symbol && f.parameters = g.parameters
    && f.bindings = g.bindings && f.returnType = g.returnType && f.buffers = g.buffers
    && sameBlock f.body g.body
    && match f.result, g.result with
      | some a, some b => a.same b
      | none, none => true
      | _, _ => false

/-- Equality of function lists. The order of functions counts. -/
def sameAll : List EmittedFunction → List EmittedFunction → Bool
  | [], [] => true
  | f :: fs, g :: gs => f.same g && sameAll fs gs
  | _, _ => false

end EmittedFunction

namespace EmittedModule

def same (m n : EmittedModule) : Bool :=
  m.name = n.name && EmittedFunction.sameAll m.functions n.functions

end EmittedModule

end StagedArrays
