import StagedArrays.Error

namespace StagedArrays

/-- Makes room for a number of elements. No allocation has more bytes than a
    signed word can count. -/
def DType.reserve (dtype : DType) (count : Nat) : Except Fault Unit :=
  if count * dtype.size < Word.bound / 2 then .ok () else .error .capacityOverflow

/-- Room is made or the capacity overflows; there is no third outcome. Proofs
    about allocations split along it. -/
theorem DType.reserve_cases (dtype : DType) (count : Nat) :
    dtype.reserve count = .ok () ∨ dtype.reserve count = .error .capacityOverflow := by
  unfold DType.reserve
  split
  · exact .inl rfl
  · exact .inr rfl

/-- A single element always has room, so that a scalar can always be
    allocated. -/
theorem DType.reserve_one (dtype : DType) : dtype.reserve 1 = .ok () := by
  cases dtype <;> rfl

/-- Element storage on the host: a sequence of immediates of one element
    type. -/
structure HostBuffer where
  dtype : DType
  elements : Array Numeric
  homogeneous : ∀ x ∈ elements, x.dtype = dtype

namespace HostBuffer

/-- No elements, of a type nevertheless: the type of a buffer is fixed when it
    is made. -/
def empty (dtype : DType) : HostBuffer := ⟨dtype, #[], by simp⟩

instance : Inhabited HostBuffer := ⟨empty .f64⟩

/-- What new storage holds: zeros of an element type. Whether there is room for
    them is for `allocate` to say. -/
def zeros (dtype : DType) (length : Nat) : HostBuffer where
  dtype := dtype
  elements := Array.replicate length (Numeric.zero dtype)
  homogeneous := by
    intro x hx
    rw [Array.eq_of_mem_replicate hx, Numeric.dtype_zero]

/-- New storage. Nothing is set aside for more bytes than a signed word can
    count: the request faults instead, whatever memory there is. -/
def allocate (dtype : DType) (length : Nat) : Except Fault HostBuffer := do
  dtype.reserve length
  return zeros dtype length

/-- A buffer of the given immediates, if all are of the element type. One that
    is not makes it none. -/
def ofArray? (dtype : DType) (values : Array Numeric) : Option HostBuffer :=
  if h : ∀ x ∈ values, x.dtype = dtype then some ⟨dtype, values, h⟩ else none

def length (buffer : HostBuffer) : Nat := buffer.elements.size

/-- Where there is room, new storage holds zeros. With the next one this is all
    that is used of an allocation. -/
theorem allocate_of_reserve {dtype : DType} {length : Nat} (h : dtype.reserve length = .ok ()) :
    allocate dtype length = .ok (zeros dtype length) := by
  rw [allocate, h]
  rfl

/-- Without room nothing is set aside, and the fault is that of the capacity. No
    buffer has been made by then. -/
theorem allocate_of_reserve_error {dtype : DType} {length : Nat} {fault : Fault}
    (h : dtype.reserve length = .error fault) : allocate dtype length = .error fault := by
  rw [allocate, h]
  rfl

@[simp]
theorem length_zeros (dtype : DType) (count : Nat) : (zeros dtype count).length = count := by
  simp [length, zeros]

def get? (buffer : HostBuffer) (index : Nat) : Option Numeric := buffer.elements[index]?

/-- Overwrites one element. The type is checked before the position, so that an
    element of another type is refused as such, wherever it should go. -/
def set (buffer : HostBuffer) (index : Nat) (x : Numeric) : Except ValueError HostBuffer :=
  if hx : x.dtype = buffer.dtype then
    if h : index < buffer.elements.size then
      .ok { buffer with
        elements := buffer.elements.set index x h
        homogeneous := fun y hy => by
          rcases Array.mem_or_eq_of_mem_set hy with hmem | rfl
          · exact buffer.homogeneous y hmem
          · exact hx }
    else .error (.invalidArgument (.bufferIndex index buffer.length))
  else .error (.typeMismatch buffer.dtype x.dtype)

/-- Writing an element leaves a buffer its type. With the length, which does not
    change either, every value that fitted the buffer before fits it after. -/
theorem dtype_eq_of_set {buffer next : HostBuffer} {index : Nat} {x : Numeric}
    (h : buffer.set index x = .ok next) : next.dtype = buffer.dtype := by
  unfold set at h
  split at h
  · split at h
    · cases h
      rfl
    · cases h
  · cases h

/-- Overwriting an element neither adds nor removes any. What could be reached
    before can be reached afterwards. -/
theorem length_eq_of_set {buffer next : HostBuffer} {index : Nat} {x : Numeric}
    (h : buffer.set index x = .ok next) : next.length = buffer.length := by
  unfold set at h
  split at h
  · split at h
    · cases h
      simp [length]
    · cases h
  · cases h

/-- The elements converted to another type. Conversions round or truncate, and
    do not fail. -/
def toArray (buffer : HostBuffer) (target : DType) : Array Numeric :=
  buffer.elements.map (·.cast target)

/-- The elements themselves, if they are of the expected type. Nothing is
    converted here. -/
def elementsOf (buffer : HostBuffer) (expected : DType) : Except ValueError (Array Numeric) :=
  if buffer.dtype = expected then .ok buffer.elements
  else .error (.unexpectedDType expected buffer.dtype)

/-- Equality of type and of the elements as numbers. Zeros of either sign are
    the same number, and one that is not a number is not even the same as
    itself. -/
def sameNumbers (a b : HostBuffer) : Bool :=
  a.dtype == b.dtype && a.length == b.length
    && (a.elements.zip b.elements).all fun (x, y) => x.sameNumber y

end HostBuffer

namespace Numeric

/-- The word of an immediate; an integer as two's complement. Narrow words are
    not filled up. -/
def word : Numeric → Nat
  | f64 word => word.toNat
  | f32 word => word.toNat
  | bf16 word => word.toNat
  | f16 word => word.toNat
  | i64 value => value.toUInt64.toNat
  | i32 value => value.toUInt32.toNat

/-- The bytes of an immediate, the lowest first. There are as many as its type
    occupies. -/
def bytes (x : Numeric) : List UInt8 :=
  (List.range x.dtype.size).map fun k => .ofNat (x.word >>> (8 * k))

end Numeric

namespace HostBuffer

/-- The elements as they lie in memory, one after the other and without gaps. -/
def bytes (buffer : HostBuffer) : List UInt8 := buffer.elements.toList.flatMap Numeric.bytes

end HostBuffer

/-- Names a buffer of the host heap. Buffers are never taken away, so that a
    reference stays good for as long as there is a heap. -/
structure HostRef where
  index : Nat
  deriving DecidableEq, Hashable

/-- The host buffers in use. Values that name the same buffer share its
    elements. -/
structure Heap where
  buffers : Array HostBuffer

namespace Heap

instance : Inhabited Heap := ⟨⟨#[]⟩⟩

/-- The buffer a reference names. The heap hands out no reference without a
    buffer; any other reads as empty. -/
def get (heap : Heap) (ref : HostRef) : HostBuffer :=
  heap.buffers[ref.index]?.getD default

/-- Adds a buffer under a reference that was not in use. All others are where
    they were. -/
def add (heap : Heap) (buffer : HostBuffer) : HostRef × Heap :=
  (⟨heap.buffers.size⟩, ⟨heap.buffers.push buffer⟩)

/-- Replaces the buffer a reference names. Unknown references replace
    nothing. -/
def put (heap : Heap) (ref : HostRef) (buffer : HostBuffer) : Heap :=
  ⟨heap.buffers.setIfInBounds ref.index buffer⟩

theorem get_add_self (heap : Heap) (buffer : HostBuffer) :
    (heap.add buffer).2.get (heap.add buffer).1 = buffer := by
  simp [add, get]

/-- A reference that was in use keeps its buffer when another is added. What is
    known of storage survives allocations by this. -/
theorem get_add_of_lt (heap : Heap) (buffer : HostBuffer) {ref : HostRef}
    (h : ref.index < heap.buffers.size) : (heap.add buffer).2.get ref = heap.get ref := by
  simp [add, get, Array.getElem?_push, Nat.ne_of_lt h]

theorem get_put_self (heap : Heap) (buffer : HostBuffer) {ref : HostRef}
    (h : ref.index < heap.buffers.size) : (heap.put ref buffer).get ref = buffer := by
  simp [put, get, h]

/-- Replacing one buffer leaves every other as it is. Storage is apart from
    other storage by its reference alone. -/
theorem get_put_of_ne (heap : Heap) (buffer : HostBuffer) {ref other : HostRef}
    (h : other ≠ ref) : (heap.put ref buffer).get other = heap.get other := by
  have hne : ref.index ≠ other.index := fun hindex => h (by cases ref; cases other; simp_all)
  simp [put, get, Array.getElem?_setIfInBounds_ne hne]

end Heap

/-- An operation on the host heap. Every operation of the host on storage is
    one. -/
abbrev HeapM (α : Type) := Stateful ValueError Heap α

namespace HeapM

/-- Takes a buffer into the heap. There is always a reference for it; whether
    there is room is settled when it is made. -/
def alloc (buffer : HostBuffer) : HeapM HostRef := do
  let (ref, heap) := (← get).add buffer
  set heap
  return ref

def read (ref : HostRef) : HeapM HostBuffer := return (← get).get ref

/-- Overwrites one element of a buffer. Every other element and every other
    buffer stays as it is. -/
def write (ref : HostRef) (index : Nat) (x : Numeric) : HeapM Unit := do
  let buffer ← (← read ref).set index x
  modify (·.put ref buffer)

end HeapM

end StagedArrays
