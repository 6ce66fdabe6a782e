import StagedArrays.Fault
import StagedArrays.Numeric.Text

namespace StagedArrays

/-- The arithmetic operations. All of them take two immediates of one element
    type and give one of the same. -/
inductive BinaryOp where
  | add
  | sub
  | mul
  | div
  deriving DecidableEq, Inhabited

namespace BinaryOp

def name : BinaryOp → String
  | add => "Add"
  | sub => "Sub"
  | mul => "Mul"
  | div => "Div"

def all : List BinaryOp := [add, sub, mul, div]

def ofName? (text : String) : Option BinaryOp :=
  all.find? fun op => op.name == text

theorem ofName?_name (op : BinaryOp) : ofName? op.name = some op := by cases op <;> decide

end BinaryOp

/-- The two ways to execute: directly on host storage, or by emitting a
    program. -/
inductive ContextKind where
  | compute
  | emitter
  deriving DecidableEq

namespace ContextKind

def name : ContextKind → String
  | compute => "Compute"
  | emitter => "Emitter"

end ContextKind

/-- Why a layout refuses a request. A size that no word can count is no refusal
    but a fault. -/
inductive LayoutError where
  | rankMismatch (expected got : Nat)
  | indexOutOfBounds (dim index extent : Nat)
  | noSuchDimension (dim rank : Nat)
  | incrementCountMismatch (extents increments : Nat)
  deriving DecidableEq

namespace LayoutError

/-- What is told of a mismatch between coordinates or extents and a layout.
    Dimensions are numbered from zero. -/
def message : LayoutError → String
  | rankMismatch expected got => s!"Expected a layout of rank {expected}, got rank {got}"
  | indexOutOfBounds dim index extent =>
    s!"Index {index} is out of bounds for dimension {dim} of extent {extent}"
  | noSuchDimension dim rank => s!"Dimension {dim} does not exist in a layout of rank {rank}"
  | incrementCountMismatch extents increments =>
    s!"{extents} extents were given with {increments} increments"

/-- The kind of an error, without its particulars. -/
def kind : LayoutError → String
  | rankMismatch .. => "RankMismatch"
  | indexOutOfBounds .. => "IndexOutOfBounds"
  | noSuchDimension .. => "NoSuchDimension"
  | incrementCountMismatch .. => "IncrementCountMismatch"

end LayoutError

/-- Why an argument is unusable. Each cause carries what its message tells, so
    that messages are made in one place. -/
inductive ArgumentError where
  | notAnIndex (x : Numeric)
  | bufferIndex (index length : Nat)
  | readIndex (index : Nat)
  | hostOffset (offset : Nat)
  | storeIntoImmediate
  | notOnHost
  | noOpenFunction
  | constantIndex (index extent : Nat)
  | nestedDefinition
  | undeclaredResult (function : String)
  | missingResult (function : String)
  | openBlocks (function : String) (count : Nat)
  | finishWhileEmitting
  | pointerLevel (expected got : Nat)
  | scalarExpected
  | bufferExpected
  | argumentCount (function : String) (expected given : Nat)
  | resultNotProduced (function : String)
  | unassignedRegister (index : Nat)
  | unboundBuffer (index : Nat)
  | loadOutOfRange (buffer index : Nat)
  | argumentKind (function : String)
  | noValueReturned (symbol : String)
  | destinationNotStorage
  | loopRank (expected : String) (got : Nat)
  | countTooLarge (count : Nat)
  | noKernelResult (symbol : String)
  | dotArgumentCount (given : Nat)
  | kernelOffset (offset : Nat)
  | negativeCount (count : Int)
  | refusedView (text : String)
  | host (text : String)
  deriving DecidableEq

namespace ArgumentError

/-- How messages show a numbered handle: as a record with the number in a
    field. -/
def handle (kind : String) (index : Nat) : String :=
  kind ++ " \x7b inner: " ++ toString index ++ " \x7d"

/-- What is told of an argument that cannot be used. Each case names what was
    given, and what it was compared with. -/
def message : ArgumentError → String
  | notAnIndex x => s!"{x.text} is not a valid index"
  | bufferIndex index length => s!"index {index} out of range for buffer of {length}"
  | readIndex index => s!"index {index} out of range"
  | hostOffset offset => s!"host offset {offset} is out of range"
  | storeIntoImmediate => "cannot store into an immediate"
  | notOnHost => "scalar is not resident on the host"
  | noOpenFunction => "no function is being emitted"
  | constantIndex index extent => s!"index {index} is out of bounds for extent {extent}"
  | nestedDefinition => "functions cannot be defined while another is being emitted"
  | undeclaredResult function => s!"{function} returns a value but declares no result"
  | missingResult function => s!"{function} declares a result but returns none"
  | openBlocks function count => s!"{function} finished with {count} open blocks"
  | finishWhileEmitting => "cannot finish a module while a function is being emitted"
  | pointerLevel expected got => s!"expected pointer level {expected}, got {got}"
  | scalarExpected => "expected a scalar argument, got a buffer"
  | bufferExpected => "expected a buffer argument, got a scalar"
  | argumentCount function expected given =>
    s!"{function} takes {expected} arguments, {given} were given"
  | resultNotProduced function => s!"{function} did not produce its declared result"
  | unassignedRegister index => "register " ++ handle "RegisterId" index ++ " read before assignment"
  | unboundBuffer index => "buffer " ++ handle "BufferId" index ++ " is not bound"
  | loadOutOfRange buffer index => "load from " ++ handle "BufferId" buffer ++ s!" at {index} is out of range"
  | argumentKind function => s!"argument kind does not match parameter of {function}"
  | noValueReturned symbol => s!"{symbol} returned no value"
  | destinationNotStorage => "elementwise destination must refer to storage"
  | loopRank expected got => s!"Layout being looped over must be {expected}, got rank {got}"
  | countTooLarge count => s!"{count} does not fit a 32-bit count"
  | noKernelResult symbol => s!"{symbol} produced no result"
  | dotArgumentCount given => s!"dot takes 5 arguments, {given} were given"
  | kernelOffset offset => s!"offset {offset} is out of range"
  | negativeCount count => s!"negative element count {count}"
  | refusedView text => text
  | host text => text

end ArgumentError

/-- What no context offers. Such a request fails wherever it is made, before
    anything else is looked at. -/
inductive Unsupported where
  | hostDefinition (function : String)
  | rowOfEmittedStorage
  | dotIncrement (increment : Int)
  | kernelInContext (symbol : String)
  | matrixProduct
  | matrixVectorProduct
  deriving DecidableEq

namespace Unsupported

/-- What is told of a feature that there is not. Contexts differ in what they
    have. -/
def message : Unsupported → String
  | hostDefinition function => s!"{function} has no host definition"
  | rowOfEmittedStorage => "row views of emitted storage"
  | dotIncrement increment => s!"dot with increment {increment}"
  | kernelInContext symbol => s!"{symbol} is not available in the active context"
  | matrixProduct => "GEMM"
  | matrixVectorProduct => "GEMV"

end Unsupported

/-- What a function being emitted has used up: the buffers it may declare, or
    the bytes it may have in all of them. -/
inductive Budget where
  | buffers (function : String) (count : Nat)
  | storage (function : String) (needed limit : Nat)
  deriving DecidableEq

namespace Budget

def message : Budget → String
  | buffers function count => s!"{function} already declares {count} buffers"
  | storage function needed limit => s!"{function} needs {needed} bytes of storage, budget is {limit}"

end Budget

/-- Why an operation on values fails. The causes of layouts are among them,
    since most operations look at one. -/
inductive ValueError where
  | sizeMismatch (expected got : Nat)
  | typeMismatch (expected got : DType)
  | invalidArgument (cause : ArgumentError)
  | notImplemented (feature : Unsupported)
  | resourceExhausted (budget : Budget)
  | noActiveContext
  | foreignValue (kind : ContextKind)
  | divisionByZero
  | integerOverflow (op : BinaryOp)
  | unresolvedSymbol (symbol : String)
  | layout (cause : LayoutError)
  | unexpectedDType (expected found : DType)
  deriving DecidableEq

namespace ValueError

/-- What is told of a failed operation on values. Errors about layouts and
    arguments are passed on in their own words. -/
def message : ValueError → String
  | sizeMismatch expected got => s!"Size mismatch: {expected} vs {got}"
  | typeMismatch expected got => s!"Type mismatch: {expected.name} vs {got.name}"
  | invalidArgument cause => s!"Invalid argument: {cause.message}"
  | notImplemented feature => s!"Not implemented: {feature.message}"
  | resourceExhausted budget => s!"Resource exhausted: {budget.message}"
  | noActiveContext => "No execution context is active"
  | foreignValue kind => s!"Value cannot be used from the {kind.name} context"
  | divisionByZero => "Integer division by zero"
  | integerOverflow op => s!"Integer overflow in {op.name}"
  | unresolvedSymbol symbol => s!"Unresolved symbol: {symbol}"
  | layout cause => cause.message
  | unexpectedDType expected found => s!"Expected dtype {expected.name}, found {found.name}"

/-- The kind of an error; that of a layout comes after a slash. -/
def kind : ValueError → String
  | sizeMismatch .. => "SizeMismatch"
  | typeMismatch .. => "TypeMismatch"
  | invalidArgument _ => "InvalidArgument"
  | notImplemented _ => "NotImplemented"
  | resourceExhausted _ => "ResourceExhausted"
  | noActiveContext => "NoActiveContext"
  | foreignValue _ => "ForeignValue"
  | divisionByZero => "DivisionByZero"
  | integerOverflow _ => "IntegerOverflow"
  | unresolvedSymbol _ => "UnresolvedSymbol"
  | layout cause => "LayoutError/" ++ cause.kind
  | unexpectedDType .. => "DTypeError/UnexpectedDType"

end ValueError

/-- Outcome of an operation on values that changes nothing. It may be a result,
    an error or a fault. -/
abbrev Outcome := Except (Failure ValueError)

/-- A layout's refusal is an error of the operation that asked. The cause is
    kept as it is. -/
instance liftLayoutError : MonadLift (Except LayoutError) (Except (Failure ValueError)) where
  monadLift x := x.mapError fun cause => .error (.layout cause)

instance liftLayoutFailure : MonadLift (Except (Failure LayoutError)) (Except (Failure ValueError)) where
  monadLift x := x.mapError (Failure.map .layout)

namespace Numeric

/-- The immediate as a coordinate, or the reason why it is none. Floats are
    none, even those without a fraction, nor are negative integers. -/
def asIndex (x : Numeric) : Except ValueError Nat :=
  match x.toIndex? with
  | some index => .ok index
  | none => .error (.invalidArgument (.notAnIndex x))

end Numeric

end StagedArrays
