import StagedArrays.Kernel.Interleaved

namespace StagedArrays

/-- Small host functions, described by data, for symbols and declarations that
    need something to call. -/
inductive Routine where
  /-- Does nothing and gives nothing. -/
  | nothing
  /-- Gives an immediate. -/
  | const (x : Numeric)
  /-- Combines two scalar arguments. -/
  | fold (op : BinaryOp) (i j : Nat)
  /-- Gives the element at a distance from where a buffer argument starts, if
      there is one. -/
  | peek (i distance : Nat)
  /-- Overwrites the element at a distance from where a buffer argument
      starts. -/
  | poke (i distance : Nat) (x : Numeric)
  | singleDot
  | doubleDot
  /-- Fails with a text. -/
  | fail (text : String)

namespace Routine

/-- An argument by its position. A call with fewer arguments fails. -/
def argument (args : List HostArgument) (i : Nat) : HeapM HostArgument :=
  match args[i]? with
  | some arg => pure arg
  | none => .fail (.invalidArgument (.host s!"missing argument {i}"))

/-- The host function that is described. It looks only at the arguments it
    needs. -/
def run : Routine → HostFunction
  | nothing, _ => pure none
  | const x, _ => pure (some x)
  | fold op i j, args => do
    let x ← (← argument args i).asScalar
    let y ← (← argument args j).asScalar
    return some (← x.binary op y)
  | peek i distance, args => do
    let (ref, offset) ← (← argument args i).asBuffer
    return (← HeapM.read ref).get? (offset + distance)
  | poke i distance x, args => do
    let (ref, offset) ← (← argument args i).asBuffer
    HeapM.write ref (offset + distance) x
    return none
  | singleDot, args => Kernel.singleDot args
  | doubleDot, args => Kernel.doubleDot args
  | fail text, _ => .fail (.invalidArgument (.host text))

end Routine

end StagedArrays
