import StagedArrays.Proofs.Script.Basic

namespace StagedArrays

namespace Operand

/-- The register that an operand reads, if any. -/
def registers : Operand → List RegisterId
  | constant _ => []
  | register id => [id]

end Operand

namespace Value

/-- The registers that what is recorded for a value reads. For a value in a
    buffer they are those of its place. -/
def registers (value : Value) : List RegisterId :=
  match value.data with
  | .register id => [id]
  | .buffer _ offset => offset.registers
  | .constant _ | .host .. => []

/-- The buffer behind a value. -/
def buffers (value : Value) : List BufferId :=
  match value.data with
  | .buffer id _ => [id]
  | .register _ | .constant _ | .host .. => []

/-- Whether a value is made up of given buffers and registers. An immediate is
    always. -/
def Within (declared : List BufferId) (assigned : List RegisterId) (value : Value) : Prop :=
  value.registers ⊆ assigned ∧ value.buffers ⊆ declared

instance (declared : List BufferId) (assigned : List RegisterId) (value : Value) :
    Decidable (value.Within declared assigned) :=
  inferInstanceAs (Decidable (value.registers ⊆ assigned ∧ value.buffers ⊆ declared))

end Value

namespace Operation

/-- The values that an operation works on. -/
def values : Operation → List Value
  | allocate _ _ => []
  | element value coordinates => value :: coordinates.map Scalar.value
  | load value => [value]
  | store destination source => [destination, source]
  | binary _ a b => [a, b]
  | call _ args => args

end Operation

/-- The values that what is recorded in an event works on. -/
def EmitterEvent.values : EmitterEvent → List Value
  | .performed operation _ _ => operation.values
  | .returned result _ => result.toList
  | .opened _ | .closed => []

/-- What has been handed out while a function is being emitted, and is still
    good: the registers of each open block, the innermost first, and all
    buffers. -/
structure Scope where
  blocks : List (List RegisterId)
  buffers : List BufferId

namespace Scope

/-- Whether a value is made up of what is still good. -/
def Covers (scope : Scope) (value : Value) : Prop := value.Within scope.buffers scope.blocks.flatten

instance (scope : Scope) (value : Value) : Decidable (scope.Covers value) :=
  inferInstanceAs (Decidable (value.Within _ _))

/-- A value has been handed out in the innermost block. Its registers are good
    until the block is closed, and its buffer from then on. -/
def receive (scope : Scope) (value : Value) : Scope where
  blocks :=
    match scope.blocks with
    | [] => [value.registers]
    | block :: outer => (value.registers ++ block) :: outer
  buffers := value.buffers ++ scope.buffers

/-- What the body of a function is given. It is good throughout the body. -/
def ofParameters (parameters : List Value) : Scope := parameters.foldl receive ⟨[[]], []⟩

/-- What is good after an event. What loops hand out to their body is good until
    they are closed. -/
def after (scope : Scope) : EmitterEvent → Scope
  | .performed _ (.ok (some value)) _ => scope.receive value
  | .performed _ (.ok none) _ | .performed _ (.error _) _ => scope
  | .opened coordinates => { scope with blocks := (coordinates.flatMap (·.value.registers)) :: scope.blocks }
  | .closed => { scope with blocks := scope.blocks.tail }
  | .returned _ _ => scope

/-- Whether each of a series of events uses only what is good by then. What an
    event hands out is good for those after it. -/
def AdmitsAll : Scope → List EmitterEvent → Prop
  | _, [] => True
  | scope, event :: events => (∀ value ∈ event.values, scope.Covers value) ∧ (scope.after event).AdmitsAll events

instance decidableAdmitsAll : (scope : Scope) → (events : List EmitterEvent) → Decidable (scope.AdmitsAll events)
  | _, [] => isTrue trivial
  | scope, event :: events =>
    have := decidableAdmitsAll (scope.after event) events
    inferInstanceAs (Decidable ((∀ value ∈ event.values, scope.Covers value) ∧ (scope.after event).AdmitsAll events))

/-- A course of events in two parts is admitted if each is. The second begins
    with what is good after the first. -/
theorem admitsAll_append {scope : Scope} {events more : List EmitterEvent} :
    scope.AdmitsAll (events ++ more) ↔ scope.AdmitsAll events ∧ (events.foldl after scope).AdmitsAll more := by
  induction events generalizing scope with
  | nil => simp [AdmitsAll]
  | cons event events ih => simp [AdmitsAll, ih, and_assoc]

end Scope

/-- A function whose body uses only constants and what it has been handed out
    itself, the registers among it no longer than the loops last in whose body
    it has been handed them. -/
def Transcript.Scoped (transcript : Transcript) : Prop :=
  (Scope.ofParameters transcript.parameters).AdmitsAll transcript.events

instance (transcript : Transcript) : Decidable transcript.Scoped :=
  inferInstanceAs (Decidable ((Scope.ofParameters transcript.parameters).AdmitsAll transcript.events))

end StagedArrays
