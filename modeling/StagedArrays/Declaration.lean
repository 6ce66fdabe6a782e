import Std.Data.HashMap
import StagedArrays.Value

namespace StagedArrays

/-- What a host function receives: an immediate, or a host buffer from an offset
    on. -/
inductive HostArgument where
  | scalar (x : Numeric)
  | buffer (ref : HostRef) (offset : Nat)
  deriving DecidableEq

namespace HostArgument

def asScalar : HostArgument → Except ValueError Numeric
  | scalar x => .ok x
  | buffer .. => .error (.invalidArgument .scalarExpected)

def asBuffer : HostArgument → Except ValueError (HostRef × Nat)
  | buffer ref offset => .ok (ref, offset)
  | scalar _ => .error (.invalidArgument .bufferExpected)

end HostArgument

/-- A function the host provides. It may write to the buffers it is given, and
    what it has written stays if it then fails. -/
abbrev HostFunction := List HostArgument → HeapM (Option Numeric)

/-- The functions a compiled module can call by name besides its own. A function
    of the module is found first. -/
structure SymbolTable where
  entries : Std.HashMap String HostFunction

namespace SymbolTable

def empty : SymbolTable := ⟨∅⟩

/-- Binds a symbol; the last binding counts. A binding that is replaced cannot
    be reached any more. -/
def insert (table : SymbolTable) (symbol : String) (function : HostFunction) : SymbolTable :=
  ⟨table.entries.insert symbol function⟩

def get? (table : SymbolTable) (symbol : String) : Option HostFunction := table.entries[symbol]?

def contains (table : SymbolTable) (symbol : String) : Bool := (table.get? symbol).isSome

end SymbolTable

/-- How a declared name becomes a symbol. -/
inductive Decoration where
  /-- The module name goes before the name. -/
  | decorated
  /-- The name is the symbol, to bind a function from outside. -/
  | undecorated
  deriving DecidableEq

namespace Decoration

def name : Decoration → String
  | decorated => "Decorated"
  | undecorated => "Undecorated"

end Decoration

/-- A named callable. Executed directly it runs its host definition; while a
    program is emitted a call to its symbol is recorded. -/
structure FunctionDeclaration where
  name : String
  returnType : Option ValueType := none
  parameters : List ValueType := []
  decoration : Decoration := .decorated
  hostDefinition : Option HostFunction := none

namespace FunctionDeclaration

/-- The symbol under which a module of the given name knows the function.
    Declarations of other names may come to the same symbol. -/
def symbol (function : FunctionDeclaration) (moduleName : String) : String :=
  match function.decoration with
  | .decorated => moduleName ++ "_" ++ function.name
  | .undecorated => function.name

/-- Checks each argument against its parameter, in order. The first that does
    not fit ends the check with its error. -/
def checkEach : List ValueType → List Value → Outcome Unit
  | type :: types, arg :: args => do
    type.check arg
    checkEach types args
  | _, _ => .ok ()

/-- Checks the number of arguments, then each of them. It is the one check a
    call makes, whatever the context. -/
def checkArguments (function : FunctionDeclaration) (args : List Value) : Outcome Unit := do
  if args.length ≠ function.parameters.length then
    throw (.error (.invalidArgument
      (.argumentCount function.name function.parameters.length args.length)))
  checkEach function.parameters args

end FunctionDeclaration

end StagedArrays
