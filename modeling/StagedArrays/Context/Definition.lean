import StagedArrays.Context.World

namespace StagedArrays

namespace Emitter

/-- Starts a function, unless another is in progress. An emitter records one
    function at a time. -/
def startFunction (function : FunctionDeclaration) : EmitterM (List Value) := do
  let emitter ← get
  if emitter.current.isSome then .fail (.invalidArgument .nestedDefinition)
  else do
    let (parameters, builder) ← FunctionBuilder.start function emitter.moduleName
    set { emitter with current := some builder, scope := emitter.scope + 1 }
    return parameters

/-- The operand a function returns, checked against its declaration. That a
    result is there or absent is part of what is declared. -/
def resultOperand (function : FunctionDeclaration) (result : Option Value) :
    EmitterM (Option Operand) :=
  match result, function.returnType with
  | some value, some type => do
    value.ensureDType type.dtype
    return some (← Emit.operand value)
  | none, none => return none
  | some _, none => .fail (.invalidArgument (.undeclaredResult function.name))
  | none, some _ => .fail (.invalidArgument (.missingResult function.name))

/-- Puts away the function in progress, and records it if its body succeeded.
    Either way the emitter is ready for the next one. -/
def endFunction (outcome : Except (Failure ValueError) (Option Operand)) : EmitterM Unit := do
  let builder ← builder
  modify fun emitter => { emitter with current := none }
  let function ← builder.finish (← Stateful.settle outcome)
  modify fun emitter => { emitter with functions := emitter.functions.push function }

/-- The functions recorded so far, once none is in progress. The emitter keeps
    them, and may go on to record more. -/
def finish : EmitterM EmittedModule := do
  let emitter ← get
  if emitter.current.isSome then .fail (.invalidArgument .finishWhileEmitting)
  else return ⟨emitter.moduleName, emitter.functions.toList⟩

end Emitter

namespace Action

variable {σ : Type}

/-- Emits the body of a function. `body` gets the values of the parameters, and
    what it returns becomes the result. A function whose body fails is not
    recorded. -/
def defineFunction (id : EmitterId) (function : FunctionDeclaration)
    (body : List Value → Action σ (Option Value)) : Action σ Unit := do
  let parameters ← onEmitter id (Emitter.startFunction function)
  let outcome ← Stateful.attempt (withContext (.emitter id) do
    let result ← body parameters
    onEmitter id (Emitter.resultOperand function result))
  match outcome with
  | .error (.fault fault) => throw (.fault fault)
  | _ => onEmitter id (Emitter.endFunction outcome)

/-- The module of the functions recorded so far, under the name of its
    emitter. -/
def finishModule (id : EmitterId) : Action σ EmittedModule := onEmitter id Emitter.finish

end Action

end StagedArrays
