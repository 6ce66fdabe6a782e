import StagedArrays.Proofs.Allocator.EmitterOperations

namespace StagedArrays

open Stateful (Moves)

namespace HeapM

theorem moves_alloc (buffer : HostBuffer) : Moves Heap.Advances (alloc buffer) :=
  fun heap => heap.advances_add buffer

theorem moves_read (ref : HostRef) : Moves Heap.Advances (read ref) := .of_eq fun _ => rfl

/-- Writing an element replaces one buffer by another of the same type and
    length, or fails and replaces none. -/
theorem moves_write (ref : HostRef) (index : Nat) (x : Numeric) : Moves Heap.Advances (write ref index x) := by
  intro heap
  simp only [write, Stateful.runFrom_bind, runFrom_read, Stateful.runFrom_liftM]
  cases hset : (heap.get ref).set index x with
  | error cause => exact .refl heap
  | ok buffer => exact Heap.advances_put (HostBuffer.dtype_eq_of_set hset) (HostBuffer.length_eq_of_set hset)

theorem moves_host (buffer : HostBuffer) (layout : Layout) : Moves Heap.Advances (host buffer layout) :=
  .bind (moves_alloc _) fun _ => .bind (.of_eq fun _ => rfl) fun _ => .lift _

end HeapM

namespace Direct

/-- Reading a value changes nothing. -/
theorem moves_read (value : Value) : Moves Heap.Advances (read value) := by
  refine .bind (.lift _) fun _ => ?_
  split
  · exact .pure _
  · refine .bind (HeapM.moves_read _) fun _ => ?_
    split
    · exact .pure _
    · exact .fail _
  · exact .fail _
  · exact .fail _

/-- Reading coordinates changes nothing, however many there are and wherever it
    stops. -/
theorem moves_readIndices (coordinates : List Scalar) : Moves Heap.Advances (readIndices coordinates) := by
  induction coordinates with
  | nil => exact .pure _
  | cons coordinate rest ih =>
    exact .bind (.bind (moves_read _) fun _ => .lift _) fun _ => .bind ih fun _ => .pure _

theorem moves_allocate (dtype : DType) (layout : Layout) : Moves Heap.Advances (allocate dtype layout) :=
  .bind (.lift _) fun _ => .bind (.lift _) fun _ => HeapM.moves_host _ _

/-- Taking an element makes a view and changes nothing. -/
theorem moves_element (value : Value) (coordinates : List Scalar) :
    Moves Heap.Advances (element value coordinates) := by
  refine .bind (.lift _) fun _ => .bind (moves_readIndices _) fun _ => ?_
  split
  · exact .bind (.lift _) fun _ => .bind (.lift _) fun _ => .bind (.of_eq fun _ => rfl) fun _ => .lift _
  · exact .pure _
  · exact .fail _
  · exact .fail _

theorem moves_load (value : Value) : Moves Heap.Advances (load value) := .bind (moves_read _) fun _ => .pure _

/-- A store writes at most one element. -/
theorem moves_store (destination source : Value) : Moves Heap.Advances (store destination source) := by
  refine .bind (.lift _) fun _ => .bind (.lift _) fun _ => .bind (moves_read _) fun _ => ?_
  split
  · exact HeapM.moves_write _ _ _
  · exact .fail _
  · exact .fail _
  · exact .fail _

theorem moves_binary (op : BinaryOp) (a b : Value) : Moves Heap.Advances (binary op a b) :=
  .bind (moves_read _) fun _ => .bind (moves_read _) fun _ => .bind (.lift _) fun _ => .pure _

end Direct

namespace Action

variable {σ α : Type}

theorem moves_onHeap {action : HeapM α} (h : Moves Heap.Advances action) :
    Moves World.Advances (onHeap action : Action σ α) :=
  fun world => ⟨h world.heap, fun _ => .refl _⟩

theorem moves_onEmitter {action : EmitterM α} (h : Moves Emitter.Advances action) (id : EmitterId) :
    Moves World.Advances (onEmitter id action : Action σ α) :=
  fun world => World.advances_set (h (world.emitterAt id))

/-- A new emitter is added at the end, so that the others keep their numbers. -/
theorem moves_newEmitter (moduleName : String) (config : EmitterConfig) :
    Moves World.Advances (newEmitter moduleName config : Action σ EmitterId) := by
  refine fun world => ⟨.refl _, fun id => ?_⟩
  simp only [newEmitter, Stateful.runFrom_bind, Stateful.runFrom_get, Stateful.runFrom_set, Stateful.runFrom_pure,
    World.emitterAt, Array.getElem?_push]
  split
  · next heq =>
    rw [heq, Array.getElem?_eq_none (Nat.le_refl _)]
    exact ⟨Nat.le_refl _, fun _ _ hcurrent => by cases hcurrent⟩
  · exact .refl _

end Action

namespace Context

variable {σ : Type}

theorem moves_allocate (context : Context) (dtype : DType) (layout : Layout) :
    Moves World.Advances (context.allocate dtype layout : Action σ Value) := by
  cases context with
  | compute => exact Action.moves_onHeap (Direct.moves_allocate _ _)
  | emitter id => exact Action.moves_onEmitter (Emit.moves_allocate _ _).advances id

theorem moves_element (context : Context) (value : Value) (coordinates : List Scalar) :
    Moves World.Advances (context.element value coordinates : Action σ Value) := by
  cases context with
  | compute => exact Action.moves_onHeap (Direct.moves_element _ _)
  | emitter id => exact Action.moves_onEmitter (Emit.moves_element _ _).advances id

theorem moves_load (context : Context) (value : Value) :
    Moves World.Advances (context.load value : Action σ Value) := by
  cases context with
  | compute => exact Action.moves_onHeap (Direct.moves_load _)
  | emitter id => exact Action.moves_onEmitter (Emit.moves_load _).advances id

theorem moves_store (context : Context) (destination source : Value) :
    Moves World.Advances (context.store destination source : Action σ Unit) := by
  cases context with
  | compute => exact Action.moves_onHeap (Direct.moves_store _ _)
  | emitter id => exact Action.moves_onEmitter (Emit.moves_store _ _).advances id

theorem moves_binary (context : Context) (op : BinaryOp) (a b : Value) :
    Moves World.Advances (context.binary op a b : Action σ Value) := by
  cases context with
  | compute => exact Action.moves_onHeap (Direct.moves_binary _ _ _)
  | emitter id => exact Action.moves_onEmitter (Emit.moves_binary _ _ _).advances id

end Context

end StagedArrays
