import StagedArrays.Layout.Basic

namespace StagedArrays

/-- Element type, indirection and shape of a parameter or result. Level 0 is an
    immediate, any other level refers to storage. -/
structure ValueType where
  dtype : DType
  pointerLevel : UInt8
  layout : Layout
  deriving DecidableEq

namespace ValueType

def scalar (dtype : DType) : ValueType := ⟨dtype, 0, .scalar⟩

def pointer (dtype : DType) (layout : Layout) : ValueType := ⟨dtype, 1, layout⟩

end ValueType

/-- Names a register of an emitted function. Each is assigned by one instruction
    or loop, and holds a scalar. -/
structure RegisterId where
  index : Nat
  deriving DecidableEq, Hashable

/-- Names a buffer of an emitted function. Buffers of parameters come before
    those of the function itself. -/
structure BufferId where
  index : Nat
  deriving DecidableEq, Hashable

/-- What an instruction reads: an immediate or a register. Storage is read by a
    load of its own. -/
inductive Operand where
  | constant (x : Numeric)
  | register (id : RegisterId)
  deriving DecidableEq

/-- What a call hands over: a scalar, or a place in a buffer. The function
    called may write to the storage from there on. -/
inductive CallArgument where
  | scalar (operand : Operand)
  | buffer (id : BufferId) (offset : Operand)
  deriving DecidableEq

/-- One step of an emitted function. A loop runs its body with the induction
    register counting up from zero to below the extent. -/
inductive Instruction where
  | binary (output : RegisterId) (op : BinaryOp) (a b : Operand)
  | load (output : RegisterId) (buffer : BufferId) (offset : Operand)
  | store (buffer : BufferId) (offset value : Operand)
  | loop (induction : RegisterId) (extent : Nat) (body : List Instruction)
  | call (symbol : String) (args : List CallArgument) (output : Option RegisterId)

/-- Where a buffer of a function comes from: the caller hands it over with a
    parameter, or each call makes it anew. -/
inductive BufferSource where
  | parameter (index : Nat)
  | own
  deriving DecidableEq

/-- Storage that a function refers to: what its elements are and how many there
    are, and whether the caller hands it over or each call makes it anew. -/
structure BufferDeclaration where
  id : BufferId
  dtype : DType
  length : Nat
  source : BufferSource
  deriving DecidableEq

/-- What a parameter is bound to when the function is called: storage to a
    buffer, and a scalar to a register. -/
inductive ParameterBinding where
  | buffer (id : BufferId)
  | register (id : RegisterId)
  deriving DecidableEq

/-- A complete emitted function. All loops in it are closed, and it can be
    executed as soon as its symbols are known. -/
structure EmittedFunction where
  name : String
  symbol : String
  parameters : List ValueType
  bindings : List ParameterBinding
  returnType : Option ValueType
  buffers : List BufferDeclaration
  body : List Instruction
  result : Option Operand

/-- Emitted functions under one name. Two of them may bear the same symbol;
    calls then go to the first. -/
structure EmittedModule where
  name : String
  functions : List EmittedFunction

mutual

/-- The call targets of an instruction in program order, loops included. A
    symbol that is called twice is there twice. -/
def Instruction.symbols : Instruction → List String
  | .call symbol _ _ => [symbol]
  | .loop _ _ body => blockSymbols body
  | .binary .. | .load .. | .store .. => []

/-- The call targets of a block in program order, those of nested blocks where
    the loops are. -/
def blockSymbols : List Instruction → List String
  | [] => []
  | instruction :: rest => instruction.symbols ++ blockSymbols rest

end

namespace BufferDeclaration

def isLocal (declaration : BufferDeclaration) : Bool := declaration.source = .own

/-- Bytes of storage the declaration asks for. The product may overflow. -/
def bytes (declaration : BufferDeclaration) : Except Fault Nat :=
  Word.mul declaration.length declaration.dtype.size

/-- Bytes of storage that declarations ask for together. Products and sums may
    overflow, in the order of the declarations. -/
def totalBytes (declarations : List BufferDeclaration) : Except Fault Nat :=
  declarations.foldlM (fun total declaration => do Word.add total (← declaration.bytes)) 0

end BufferDeclaration

namespace EmittedFunction

/-- Every symbol the function calls, each once. Those of its own module are
    among them. -/
def referencedSymbols (function : EmittedFunction) : List String :=
  (blockSymbols function.body).eraseDups

def localBuffers (function : EmittedFunction) : List BufferDeclaration :=
  function.buffers.filter BufferDeclaration.isLocal

/-- Bytes of the storage the function declares for itself. Buffers of parameters
    are not counted. -/
def localStorageBytes (function : EmittedFunction) : Except Fault Nat :=
  BufferDeclaration.totalBytes function.localBuffers

end EmittedFunction

namespace EmittedModule

/-- The first function of a symbol. Later ones of the same symbol are out of
    reach for calls. -/
def bySymbol? (program : EmittedModule) (symbol : String) : Option EmittedFunction :=
  program.functions.find? fun function => function.symbol == symbol

/-- Looks a function up by its symbol or else by its declared name. A symbol of
    another function comes before a name of its own. -/
def lookup? (program : EmittedModule) (name : String) : Option EmittedFunction :=
  match program.bySymbol? name with
  | some function => some function
  | none => program.functions.find? fun function => function.name == name

end EmittedModule

end StagedArrays
