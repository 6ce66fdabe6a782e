import StagedArrays.Context.World

namespace StagedArrays

/-- Names a slot of an allocator. Slots are numbered in the order they are made,
    and none is taken away. -/
structure SlotId where
  index : Nat
  deriving DecidableEq

namespace SlotId

def text (id : SlotId) : String := ArgumentError.handle "SlotId" id.index

end SlotId

/-- Why an allocator refuses: it may have no more slots, a slot is taken back
    that is free or that it does not have, or the storage for a slot cannot be
    made. -/
inductive AllocatorError where
  | exhausted (slots : Nat)
  | doubleFree (slot : SlotId)
  | unknownSlot (slot : SlotId)
  | value (cause : ValueError)
  deriving DecidableEq

namespace AllocatorError

/-- What is told of a failed request for storage. A failure of a value that was
    involved is told as such. -/
def message : AllocatorError → String
  | exhausted slots => s!"All {slots} storage slots are in use"
  | doubleFree slot => s!"Slot {slot.text} was freed while already free"
  | unknownSlot slot => s!"Slot {slot.text} does not belong to this allocator"
  | value cause => cause.message

/-- The kind of an error; that of a value comes after a slash. -/
def kind : AllocatorError → String
  | exhausted _ => "Exhausted"
  | doubleFree _ => "DoubleFree"
  | unknownSlot _ => "UnknownSlot"
  | value cause => "ValueError/" ++ cause.kind

end AllocatorError

/-- A value together with the slot behind it. Without a slot its storage is
    owned elsewhere, and freeing it does nothing. -/
structure Variable where
  slot : Option SlotId
  value : Value
  deriving DecidableEq

namespace Variable

def unmanaged (value : Value) : Variable := ⟨none, value⟩

def dtype (v : Variable) : DType := v.value.dtype

def layout (v : Variable) : Layout := v.value.layout

end Variable

/-- One slot: the storage it was given, how many elements that spans, the scope
    of the context it came from, and whether it is handed out. -/
structure Slot where
  storage : Value
  capacity : Nat
  scope : Nat
  live : Bool

/-- Hands out storage of the active context and hands it out again once
    freed. -/
structure SlotAllocator where
  maxSlots : Nat := 64
  slots : Array Slot := #[]

namespace SlotAllocator

instance : Inhabited SlotAllocator := ⟨{}⟩

def liveSlots (allocator : SlotAllocator) : Nat := allocator.slots.countP (·.live)

def totalSlots (allocator : SlotAllocator) : Nat := allocator.slots.size

/-- The first free slot of a scope whose storage has the element type and enough
    room. -/
def recyclable? (allocator : SlotAllocator) (scope : Nat) (dtype : DType) (needed : Nat) :
    Option (Slot × Nat) :=
  allocator.slots.toList.zipIdx.find? fun (slot, _) =>
    !slot.live && slot.scope == scope && slot.storage.dtype == dtype && needed ≤ slot.capacity

/-- The first free slot whose storage belongs to another scope. Such storage is
    of no use here, but the slot is: fresh storage can go into it. -/
def stale? (allocator : SlotAllocator) (scope : Nat) : Option Nat :=
  allocator.slots.findIdx? fun slot => !slot.live && slot.scope != scope

/-- Marks a slot as handed out or free. What the slot has for storage is not
    touched, so that it can be handed out again. -/
def setLive (allocator : SlotAllocator) (index : Nat) (live : Bool) : SlotAllocator :=
  { allocator with slots := allocator.slots.modify index fun slot => { slot with live } }

/-- Puts fresh storage into a slot, or into a new one at the end. Only here can
    the number of slots grow. -/
def place (allocator : SlotAllocator) (slot : Slot) : Option Nat → SlotId × SlotAllocator
  | some index => (⟨index⟩, { allocator with slots := allocator.slots.setIfInBounds index slot })
  | none => (⟨allocator.slots.size⟩, { allocator with slots := allocator.slots.push slot })

/-- Takes back the slot of a variable. Without a slot there is nothing to take
    back; the storage itself is not compared with that of the slot. -/
def release (allocator : SlotAllocator) (v : Variable) : Except AllocatorError SlotAllocator :=
  match v.slot with
  | none => .ok allocator
  | some id =>
    match allocator.slots[id.index]? with
    | none => .error (.unknownSlot id)
    | some slot =>
      if slot.live then .ok (allocator.setLive id.index false) else .error (.doubleFree id)

end SlotAllocator

/-- An allocator at work in a world, in which it finds the active context and
    with it the scope. -/
structure Storage (σ : Type) where
  allocator : SlotAllocator
  world : World σ

/-- A step of an allocator. What it does to the world stays done if the step
    fails. -/
abbrev StorageM (σ α : Type) := Stateful AllocatorError (Storage σ) α

namespace StorageM

variable {σ : Type}

def onWorld {α : Type} (action : Action σ α) : StorageM σ α :=
  .focus (fun ⟨allocator, world⟩ => (world, (⟨allocator, ·⟩))) (action.mapCause .value)

def setAllocator (allocator : SlotAllocator) : StorageM σ Unit :=
  modify fun storage => { storage with allocator }

/-- Hands out storage for a layout. A free slot of the active scope that fits is
    used again, with whatever it holds; otherwise fresh storage goes into a free
    slot of another scope, or into a new slot while there may be one. -/
def allocate (dtype : DType) (layout : Layout) : StorageM σ Variable := do
  let context ← onWorld Action.activeContext
  let scope ← onWorld context.storageScope
  let needed ← layout.memorySize
  let allocator := (← get).allocator
  match allocator.recyclable? scope dtype needed with
  | some (slot, index) =>
    let value ← onWorld (.onHeap do slot.storage.withLayout (← get) layout)
    setAllocator (allocator.setLive index true)
    return ⟨some ⟨index⟩, value⟩
  | none =>
    let stale := allocator.stale? scope
    if stale.isNone ∧ allocator.maxSlots ≤ allocator.totalSlots then
      .fail (.exhausted allocator.maxSlots)
    else do
      let storage ← onWorld (context.allocate dtype layout)
      let (id, allocator) := allocator.place ⟨storage, needed, scope, true⟩ stale
      setAllocator allocator
      return ⟨some id, storage⟩

/-- Takes back the storage of a variable. The contents stay as they are until
    the slot is handed out again. -/
def free (v : Variable) : StorageM σ Unit := do
  setAllocator (← (← get).allocator.release v)

end StorageM

end StagedArrays
