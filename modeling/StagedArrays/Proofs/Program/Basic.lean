import StagedArrays.Algebra.Reduce
import StagedArrays.Proofs.Storage.Direct

namespace StagedArrays

/-- A layout as programs name it. Each extent has an increment. -/
structure Shape extends Layout where
  formed : toLayout.Formed

/-- One element of host storage. Different values may cover the same one. -/
structure Cell where
  ref : HostRef
  index : Nat
  deriving DecidableEq

/-- What a program does to host storage: it takes storage inside a loop body,
    reads an element, or overwrites one. -/
inductive Access where
  | opened (ref : HostRef)
  | loaded (cell : Cell)
  | stored (cell : Cell)
  deriving DecidableEq

/-- The accesses of a run, the earliest first. They are noted as the run goes
    on. -/
abbrev AccessLog := List Access

/-- The element that an access reads. -/
def Access.loaded? : Access → Option Cell
  | .loaded cell => some cell
  | .opened _ | .stored _ => none

theorem Access.loaded?_eq_some {access : Access} {cell : Cell} :
    access.loaded? = some cell ↔ access = .loaded cell := by
  cases access <;> simp [loaded?]

namespace AccessLog

/-- Storage taken inside a loop body is written before it is read. Every
    execution of the body takes storage of its own, so the write belongs to the
    same execution. -/
def StoredBeforeLoaded (log : AccessLog) : Prop :=
  ∀ before cell after, log = before ++ .loaded cell :: after →
    .opened cell.ref ∈ before → .stored cell ∈ before

/-- An element of storage taken inside a loop body that has been written, or an
    element of any other storage. -/
def Settled (log : AccessLog) (cell : Cell) : Prop := .opened cell.ref ∈ log → .stored cell ∈ log

variable {log more : AccessLog}

instance (cell : Cell) : Decidable (log.Settled cell) := inferInstanceAs (Decidable (_ → _))

/-- Whatever an access reads is settled by the accesses before it. -/
theorem storedBeforeLoaded_iff :
    log.StoredBeforeLoaded ↔ ∀ i : Fin log.length, ∀ cell ∈ log[i].loaded?, Settled (log.take i) cell := by
  constructor
  · intro h i cell hmem
    refine h _ cell (log.drop (i + 1)) ?_
    rw [← Access.loaded?_eq_some.mp hmem, Fin.getElem_fin, ← List.drop_eq_getElem_cons, List.take_append_drop]
  · rintro h before cell after rfl
    have hsettled := h ⟨before.length, by simp⟩ cell (by simp [Access.loaded?])
    rwa [List.take_left] at hsettled

instance : Decidable log.StoredBeforeLoaded := decidable_of_iff' _ storedBeforeLoaded_iff

theorem StoredBeforeLoaded.of_append (h : StoredBeforeLoaded (log ++ more)) : log.StoredBeforeLoaded := by
  intro before cell after heq hopened
  exact h before cell (after ++ more) (by simp [heq]) hopened

/-- What reads nothing leaves a log as good as it is. This is true of accesses
    of any other kind. -/
theorem StoredBeforeLoaded.append (h : log.StoredBeforeLoaded) (hmore : ∀ cell, .loaded cell ∉ more) :
    StoredBeforeLoaded (log ++ more) := by
  intro before cell after heq hopened
  rcases List.append_eq_append_iff.mp heq with ⟨rest, _, rfl⟩ | ⟨rest, hlog, hrest⟩
  · exact (hmore cell (List.mem_append_right _ List.mem_cons_self)).elim
  · cases rest with
    | nil =>
      refine (hmore cell ?_).elim
      rw [List.nil_append] at hrest
      rw [← hrest]
      exact List.mem_cons_self
    | cons access rest =>
      cases hrest
      exact h before cell rest hlog hopened

/-- What is read next is settled. -/
theorem StoredBeforeLoaded.settled {cells : List Cell} (h : StoredBeforeLoaded (log ++ cells.map .loaded))
    {cell : Cell} (hmem : cell ∈ cells) : log.Settled cell := by
  intro hopened
  obtain ⟨first, last, rfl⟩ := List.append_of_mem hmem
  have hstored := h (log ++ first.map .loaded) cell (last.map .loaded) (by simp)
    (List.mem_append_left _ hopened)
  rcases List.mem_append.mp hstored with hstored | hstored
  · exact hstored
  · simp at hstored

end AccessLog

namespace Value

/-- The elements of host storage that a value covers, in layout order. An
    immediate covers none. -/
def cells (value : Value) : List Cell :=
  match value.host? with
  | some (ref, offset) =>
    value.layout.coordinates.map fun coordinates => ⟨ref, offset + value.layout.place coordinates⟩
  | none => []

end Value

/-- The values of the variables in scope, numbered from the outermost. -/
abbrev Env (n : Nat) := Fin n → Value

namespace Env

/-- Numbers values in order. Callers hand over as many as they are asked for,
    and any further variable would be an immediate. -/
def ofList (n : Nat) (values : List Value) : Env n := fun i => values.getD i (.constant default)

/-- Brings further values into scope. -/
def append {n : Nat} (env : Env n) (count : Nat) (values : List Value) : Env (n + count) :=
  Fin.addCases env (ofList count values)

/-- Brings one more value into scope. -/
def push {n : Nat} (env : Env n) (value : Value) : Env (n + 1) := env.append 1 [value]

end Env

/-- What an operation is applied to: a variable in scope, or an immediate.
    Variables are bound by the operations before. -/
inductive Term (n : Nat) where
  | bound (index : Fin n)
  | immediate (x : Numeric)

namespace Term

def value {n : Nat} (env : Env n) : Term n → Value
  | bound index => env index
  | immediate x => .constant x

end Term

/-- Programs over `n` variables in scope. Each operation that has a result binds
    one more variable for what follows it. A loop binds its coordinates for its
    body only, and what the body binds is not known outside it; what the body
    hands back is dropped. -/
inductive Program : Nat → Type where
  | done {n : Nat} (result : Option (Term n)) : Program n
  | allocate {n : Nat} (dtype : DType) (shape : Shape) (next : Program (n + 1)) : Program n
  | view {n : Nat} (source : Term n) (shape : Shape) (next : Program (n + 1)) : Program n
  | element {n : Nat} (source : Term n) (coordinates : List (Term n)) (next : Program (n + 1)) :
    Program n
  | load {n : Nat} (source : Term n) (next : Program (n + 1)) : Program n
  | store {n : Nat} (destination source : Term n) (next : Program n) : Program n
  | binary {n : Nat} (op : BinaryOp) (a b : Term n) (next : Program (n + 1)) : Program n
  | dot {n : Nat} (v w : Term n) (next : Program (n + 1)) : Program n
  | forEach {n : Nat} (shape : Shape) (body : Program (n + shape.rank)) (next : Program n) : Program n

namespace Program

/-- Enters accesses into the log of a run. Nothing else is changed. -/
def note (accesses : List Access) : Action AccessLog Unit :=
  modify fun world => { world with client := world.client ++ accesses }

/-- Notes that everything the values cover is read. An operation may read less
    than that. -/
def noteLoads (values : List Value) : Action AccessLog Unit :=
  note ((values.flatMap Value.cells).map .loaded)

/-- Notes that everything a value covers is written. Only values of rank 0 are
    stored to. -/
def noteStore (value : Value) : Action AccessLog Unit := note (value.cells.map .stored)

/-- Notes that storage was taken, if that was inside a loop body. Outside of
    loops emitted storage is as fresh as direct storage. -/
def noteFresh (looping : Bool) (value : Value) : Action AccessLog Unit :=
  match looping, value.host? with
  | true, some (ref, _) => note [.opened ref]
  | _, _ => note []

/-- Takes storage from the active context. Inside a loop body this is noted. -/
def allocation (looping : Bool) (dtype : DType) (layout : Layout) : Action AccessLog Value := do
  let fresh ← (← Action.activeContext).allocate dtype layout
  noteFresh looping fresh
  return fresh

/-- The data of a value seen through another layout. No element is read for
    it. -/
def viewing (source : Value) (layout : Layout) : Action AccessLog Value :=
  .onHeap do source.withLayout (← get) layout

/-- The scalars that stand for values of rank 0. -/
def scalarsOf (values : List Value) : Except LayoutError (List Scalar) := values.mapM Scalar.ofValue

/-- One element of a value. Its coordinates are read in the course of that,
    which is noted. -/
def selection (source : Value) (coordinates : List Value) : Action AccessLog Value := do
  let scalars ← scalarsOf coordinates
  noteLoads coordinates
  (← Action.activeContext).element source scalars

/-- The contents of a rank-0 value. -/
def loading (source : Value) : Action AccessLog Value := do
  noteLoads [source]
  (← Action.activeContext).load source

/-- Writes one rank-0 value to the storage of another. The reading of the source
    is noted before, and the writing after. -/
def storing (destination source : Value) : Action AccessLog Unit := do
  noteLoads [source]
  (← Action.activeContext).store destination source
  noteStore destination

/-- The result of an operation on rank-0 values. Both are read, the left one
    first. -/
def combination (op : BinaryOp) (a b : Value) : Action AccessLog Value := do
  noteLoads [a, b]
  (← Action.activeContext).binary op a b

/-- The inner product of two vectors. All of their elements are read. -/
def product [ArrayLibrary] (v w : Value) : Action AccessLog Value := do
  let left ← Vector.ofValue v
  let right ← Vector.ofValue w
  noteLoads [v, w]
  return (← left.dot right).value

/-- Runs a program in the active context, and hands back the value it ends
    with. -/
def run [ArrayLibrary] : {n : Nat} → Program n → (looping : Bool) → Env n → Action AccessLog (Option Value)
  | _, done result, _, env => return result.map (·.value env)
  | _, allocate dtype shape next, looping, env => do
    next.run looping (env.push (← allocation looping dtype shape.toLayout))
  | _, view source shape next, looping, env => do
    next.run looping (env.push (← viewing (source.value env) shape.toLayout))
  | _, element source coordinates next, looping, env => do
    next.run looping (env.push (← selection (source.value env) (coordinates.map (·.value env))))
  | _, load source next, looping, env => do
    next.run looping (env.push (← loading (source.value env)))
  | _, store destination source next, looping, env => do
    storing (destination.value env) (source.value env)
    next.run looping env
  | _, binary op a b next, looping, env => do
    next.run looping (env.push (← combination op (a.value env) (b.value env)))
  | _, dot v w next, looping, env => do
    next.run looping (env.push (← product (v.value env) (w.value env)))
  | _, forEach shape body next, looping, env => do
    (← Action.activeContext).forEach shape.toLayout fun coordinates =>
      discard (body.run true (env.append shape.rank (coordinates.map Scalar.value)))
    next.run looping env

/-- A program as the body of a function with as many parameters as it has
    variables. -/
def body [ArrayLibrary] {n : Nat} (program : Program n) (parameters : List Value) : Action AccessLog (Option Value) :=
  program.run false (.ofList n parameters)

/-- The immediate that a program ends with. A program without a result ends with
    none. -/
def readResult : Option Value → Action AccessLog (Option Numeric)
  | none => return none
  | some value => do
    let scalar ← Scalar.ofValue value
    noteLoads [value]
    return some (← Action.onHeap scalar.contents)

/-- Executes a program directly on inputs, and reads its result. The host is the
    active context meanwhile. -/
def execute [ArrayLibrary] {n : Nat} (program : Program n) (inputs : List Value) : Action AccessLog (Option Numeric) :=
  .withContext .compute do readResult (← program.body inputs)

end Program

end StagedArrays
