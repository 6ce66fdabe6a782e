import StagedArrays.Proofs.Layout.Packed
import StagedArrays.Proofs.Storage.Direct

namespace StagedArrays

namespace Numeric

open Word

/-- A machine word is read as a coordinate only if it is a position, and then as
    itself. -/
theorem eq_of_asIndex_ofIndex {index found : Nat} (hbound : index < bound) (h : (ofIndex index).asIndex = .ok found) :
    found = index ∧ Signed index := by
  by_cases hsigned : Signed index
  · rw [asIndex_ofIndex hsigned] at h
    exact ⟨(Except.ok.inj h).symm, hsigned⟩
  · exfalso
    rw [signed_iff, Nat.not_lt] at hsigned
    simp only [bound, UInt64.size] at hbound
    have hnegative : (index : Int).bmod Int64.size < 0 := by
      rw [Int.bmod_def]
      simp only [Int64.size]
      split <;> omega
    simp [asIndex, toIndex?, toInt?, ofIndex, Int.not_le.mpr hnegative] at h

end Numeric

namespace Scalar

/-- The coordinates that the immediates of given numbers are read as. Numbers
    that are no signed words are not read as themselves. -/
def indices (coordinates : List Nat) : Except ValueError (List Nat) :=
  coordinates.mapM fun index => (Numeric.ofIndex index).asIndex

theorem indices_cons (index : Nat) (coordinates : List Nat) : indices (index :: coordinates) = (do
    let first ← (Numeric.ofIndex index).asIndex
    let rest ← indices coordinates
    return first :: rest) := List.mapM_cons

/-- Coordinates that are signed words can be passed as scalars and read back. -/
theorem indices_of_signed {coordinates : List Nat} (h : ∀ index ∈ coordinates, Word.Signed index) :
    indices coordinates = .ok coordinates := by
  induction coordinates with
  | nil => rfl
  | cons index coordinates ih =>
    rw [indices_cons, Numeric.asIndex_ofIndex (h index List.mem_cons_self), ih fun i hi => h i (List.mem_cons_of_mem _ hi)]
    rfl

/-- What is read back are the coordinates that were passed. -/
theorem eq_of_indices {coordinates found : List Nat} (hbound : ∀ index ∈ coordinates, index < Word.bound)
    (h : indices coordinates = .ok found) : found = coordinates := by
  induction coordinates generalizing found with
  | nil =>
    cases h
    rfl
  | cons index coordinates ih =>
    simp only [indices_cons, bind_eq_ok_iff] at h
    obtain ⟨first, hfirst, rest, hrest, h⟩ := h
    cases h
    rw [(Numeric.eq_of_asIndex_ofIndex (hbound index List.mem_cons_self) hfirst).1,
      ih (fun i hi => hbound i (List.mem_cons_of_mem _ hi)) hrest]

/-- Reading the coordinates of a loop needs no storage. They are immediates. -/
theorem runFrom_readIndices_ofIndex (coordinates : List Nat) (heap : Heap) :
    (Direct.readIndices (coordinates.map ofIndex)).runFrom heap = (liftM (indices coordinates), heap) := by
  induction coordinates with
  | nil => rfl
  | cons index coordinates ih =>
    have hread : (Direct.readIndex (ofIndex index)).runFrom heap = (liftM (Numeric.ofIndex index).asIndex, heap) := rfl
    rw [List.map_cons, Direct.readIndices, Stateful.runFrom_bind, hread, indices_cons]
    cases (Numeric.ofIndex index).asIndex with
    | error cause => rfl
    | ok first =>
      dsimp only [liftM_error_ok]
      rw [Stateful.runFrom_bind, ih]
      cases indices coordinates <;> rfl

end Scalar

namespace Value

/-- The element at given coordinates, as they are read. What it holds is not
    looked at. -/
def elementAt (heap : Heap) (value : Value) (coordinates : List Nat) : Outcome Value := do
  value.layout.ensureRank coordinates.length
  let indices ← Scalar.indices coordinates
  match value.data with
  | .host ref offset => do
    let place ← Word.add offset (← value.layout.offset indices)
    make heap value.dtype .scalar (.host ref place)
  | .constant _ => return value
  | .buffer .. | .register _ => throw (.error (.foreignValue .compute))

/-- The immediate that a value of rank 0 holds. Emitted values hold none on the
    host. -/
def held (heap : Heap) (value : Value) : Outcome Numeric := do
  value.layout.ensureRank 0
  match value.data with
  | .constant x => return x
  | .host ref offset =>
    match (heap.get ref).get? offset with
    | some x => return x
    | none => throw (.error (.invalidArgument (.hostOffset offset)))
  | .buffer .. | .register _ => throw (.error (.foreignValue .compute))

/-- The immediate at given coordinates. The element is found first, and then
    read. -/
def peek (heap : Heap) (value : Value) (coordinates : List Nat) : Outcome Numeric := do
  (← value.elementAt heap coordinates).held heap

end Value

namespace Direct

/-- Reading changes nothing. -/
theorem runFrom_read (value : Value) (heap : Heap) : (read value).runFrom heap = (value.held heap, heap) := by
  rw [read, Value.held, Stateful.runFrom_bind, Stateful.runFrom_liftM]
  cases value.layout.ensureRank 0 with
  | error cause => rfl
  | ok u =>
    dsimp only [liftM_layoutError_ok, ok_bind]
    cases value.data with
    | constant x => rfl
    | register id => rfl
    | buffer id place => rfl
    | host ref offset =>
      dsimp only
      rw [Stateful.runFrom_bind, HeapM.runFrom_read]
      dsimp only
      cases (heap.get ref).get? offset <;> rfl

/-- What an element is depends on the coordinates read, and changes nothing. -/
theorem runFrom_element_ofIndex (value : Value) (coordinates : List Nat) (heap : Heap) :
    (element value (coordinates.map Scalar.ofIndex)).runFrom heap = (value.elementAt heap coordinates, heap) := by
  rw [element, Value.elementAt, Stateful.runFrom_bind, Stateful.runFrom_liftM, List.length_map]
  cases (value.layout.ensureRank coordinates.length) with
  | error cause => rfl
  | ok u =>
    dsimp only [liftM_layoutError_ok]
    rw [Stateful.runFrom_bind, Scalar.runFrom_readIndices_ofIndex]
    cases Scalar.indices coordinates with
    | error cause => rfl
    | ok indices =>
      dsimp only [liftM_error_ok]
      cases value.data with
      | constant x => rfl
      | register id => rfl
      | buffer id place => rfl
      | host ref offset =>
        dsimp only
        simp only [ok_bind, Stateful.runFrom_bind, Stateful.runFrom_liftM]
        cases value.layout.offset indices with
        | error failure => rfl
        | ok place =>
          dsimp only [liftM_layoutFailure_ok, ok_bind]
          cases Word.add offset place <;> rfl

end Direct

namespace Value

/-- A value as values are made. Its storage reaches as far as its layout. -/
structure Sound (heap : Heap) (value : Value) : Prop where
  made : make heap value.dtype value.layout value.data = .ok value
  formed : value.layout.Formed

/-- Two heaps hold the same where a value lies. Elsewhere they may differ. -/
def Alike (heap other : Heap) (value : Value) : Prop :=
  ∀ ref offset, value.data = .host ref offset →
    (other.get ref).dtype = (heap.get ref).dtype ∧ (other.get ref).length = (heap.get ref).length ∧
      ∀ needed, value.layout.memorySize = .ok needed → ∀ index < needed,
        (other.get ref).get? (offset + index) = (heap.get ref).get? (offset + index)

variable {heap other : Heap} {value : Value} {ref : HostRef} {offset : Nat} {coordinates : List Nat} {x : Numeric}

/-- What a scalar at an offset holds is the element there. Beyond the end of the
    buffer there is none. -/
theorem held_host (dtype : DType) : (⟨dtype, .scalar, .host ref offset⟩ : Value).held heap =
    ((heap.get ref).get? offset).elim (.error (.error (.invalidArgument (.hostOffset offset)))) .ok := by
  have hrank : Layout.scalar.ensureRank 0 = .ok () := rfl
  simp only [held, hrank, liftM_layoutError_ok, ok_bind]
  cases (heap.get ref).get? offset <;> rfl

/-- Heaps are alike for a value if its buffer is the same in both. More than the
    value covers may be the same. -/
theorem Alike.of_get_eq (h : ∀ ref offset, value.data = .host ref offset → other.get ref = heap.get ref) :
    value.Alike heap other := by
  intro ref offset hdata
  rw [h ref offset hdata]
  exact ⟨rfl, rfl, fun _ _ _ _ => rfl⟩

/-- Host data are of the type of the value, and reach as far as its layout. The
    end is within a word. -/
theorem Sound.host (h : value.Sound heap) (hdata : value.data = .host ref offset) :
    (heap.get ref).dtype = value.dtype ∧ ∃ size, value.layout.memorySize = .ok size ∧
      offset + size < Word.bound ∧ offset + size ≤ (heap.get ref).length := by
  have hmade := h.made
  rw [hdata, make_host_eq_ok] at hmade
  exact ⟨hmade.1, hmade.2.1⟩

/-- Where the coordinates of an element inside a sound value lead. The sum with
    the offset does not overflow. -/
theorem Sound.placed (h : value.Sound heap) (hdata : value.data = .host ref offset)
    (hin : Layout.InBounds coordinates value.layout.extents) :
    (do
        let place ← Word.add offset (← value.layout.offset coordinates)
        make heap value.dtype .scalar (.host ref place) : Outcome Value) =
      .ok ⟨value.dtype, .scalar, .host ref (offset + value.layout.place coordinates)⟩ := by
  obtain ⟨hdtype, size, hsize, hbound, hle⟩ := h.host hdata
  exact Direct.element_of_inBounds hdtype hsize hbound hle hin

/-- Whether a value can be made depends on the type and length of its buffer
    only. What the buffer holds does not matter. -/
theorem make_congr {dtype : DType} {layout : Layout} (hdtype : (other.get ref).dtype = (heap.get ref).dtype)
    (hlength : (other.get ref).length = (heap.get ref).length) :
    make other dtype layout (.host ref offset) = make heap dtype layout (.host ref offset) := by
  simp only [make, hdtype, hlength]

/-- Host data stay sound where the buffer keeps its type and length. What is in
    the buffer does not matter. -/
theorem Sound.of_alike (h : value.Sound heap) (halike : value.Alike heap other) : value.Sound other := by
  refine ⟨?_, h.formed⟩
  rw [← h.made]
  cases hdata : value.data with
  | constant x => rfl
  | register id => rfl
  | buffer id place => rfl
  | host ref offset =>
    obtain ⟨hdtype, hlength, -⟩ := halike ref offset hdata
    exact make_congr hdtype hlength

/-- The element at coordinates inside a sound value that are read as
    themselves. -/
theorem elementAt_host (h : value.Sound heap) (hdata : value.data = .host ref offset)
    (hindices : Scalar.indices coordinates = .ok coordinates) (hin : Layout.InBounds coordinates value.layout.extents) :
    value.elementAt heap coordinates = .ok ⟨value.dtype, .scalar, .host ref (offset + value.layout.place coordinates)⟩ := by
  have hrank : value.layout.ensureRank coordinates.length = .ok () := Layout.ensureRank_eq_ok.mpr hin.length_eq.symm
  simp only [elementAt, hrank, hindices, hdata, liftM_layoutError_ok, liftM_error_ok, ok_bind]
  exact h.placed hdata hin

/-- The element at coordinates inside a value is what its buffer holds at their
    place. The coordinates have to be readable. -/
theorem peek_host (h : value.Sound heap) (hdata : value.data = .host ref offset)
    (hindices : Scalar.indices coordinates = .ok coordinates) (hin : Layout.InBounds coordinates value.layout.extents)
    (hx : (heap.get ref).get? (offset + value.layout.place coordinates) = some x) :
    value.peek heap coordinates = .ok x := by
  rw [peek, elementAt_host h hdata hindices hin, ok_bind, held_host, hx]
  rfl

/-- With an increment of zero a vector has one and the same element at each of
    its coordinates, however many there are. -/
theorem peek_of_repeats (h : value.Sound heap) (hdata : value.data = .host ref offset) {count : Nat}
    (hlayout : value.layout = ⟨[count], [0]⟩) (hcount : Word.Signed count) (hx : (heap.get ref).get? offset = some x) :
    ∀ coordinates ∈ Layout.rowMajor [count], value.peek heap coordinates = .ok x := by
  intro coordinates hmem
  have hin := Layout.mem_rowMajor.mp hmem
  obtain ⟨index, rest, hlt, hrest, rfl⟩ := List.forall₂_cons_right_iff.mp hin
  obtain rfl := List.forall₂_nil_right_iff.mp hrest
  rw [Word.signed_iff] at hcount
  refine peek_host h hdata (Scalar.indices_of_signed ?_) (hlayout ▸ hin) ?_
  · exact List.forall_mem_singleton.mpr (Word.signed_iff.mpr (Nat.lt_trans hlt hcount))
  · rw [hlayout]
    exact hx

/-- An element is the same in heaps in which the storage of its value is. -/
theorem elementAt_congr (halike : value.Alike heap other) (coordinates : List Nat) :
    value.elementAt other coordinates = value.elementAt heap coordinates := by
  unfold elementAt
  cases hdata : value.data with
  | constant x => rfl
  | register id => rfl
  | buffer id place => rfl
  | host ref offset =>
    obtain ⟨hdtype, hlength, -⟩ := halike ref offset hdata
    simp only [make_congr hdtype hlength]

/-- An element is the immediate itself, or a place within the storage of the
    value. -/
theorem elementAt_eq_ok {item : Value} (hformed : value.layout.Formed) (h : value.elementAt heap coordinates = .ok item) :
    (∃ x, value.data = .constant x ∧ item = value) ∨
      ∃ ref offset found, value.data = .host ref offset ∧ Layout.InBounds found value.layout.extents ∧
        (heap.get ref).dtype = value.dtype ∧
        item = ⟨value.dtype, .scalar, .host ref (offset + value.layout.place found)⟩ := by
  simp only [elementAt, bind_eq_ok_iff, liftM_error_eq_ok_iff] at h
  obtain ⟨_, -, indices, -, h⟩ := h
  cases hdata : value.data with
  | constant x =>
    rw [hdata] at h
    cases h
    exact .inl ⟨x, rfl, rfl⟩
  | register id =>
    rw [hdata] at h
    cases h
  | buffer id place =>
    rw [hdata] at h
    cases h
  | host ref offset =>
    simp only [hdata, bind_eq_ok_iff, liftM_fault_eq_ok_iff, liftM_layoutFailure_eq_ok_iff, Word.add_eq_ok_iff,
      make_host_eq_ok] at h
    obtain ⟨place, hplace, _, ⟨rfl, -⟩, hdtype, -, rfl⟩ := h
    obtain ⟨-, rfl⟩ := Layout.place_eq_of_offset hplace
    exact .inr ⟨ref, offset, indices, rfl, Layout.inBounds_of_offset hformed hplace, hdtype, rfl⟩

/-- If an element is found, its coordinates could be read. They are read before
    anything else. -/
theorem exists_indices_of_elementAt {item : Value} (h : value.elementAt heap coordinates = .ok item) :
    ∃ found, Scalar.indices coordinates = .ok found := by
  simp only [elementAt, bind_eq_ok_iff, liftM_error_eq_ok_iff] at h
  obtain ⟨_, -, found, hfound, -⟩ := h
  exact ⟨found, hfound⟩

/-- An element depends on nothing but where the value lies. Coordinates out of
    bounds fail alike in both heaps. -/
theorem peek_congr (h : value.Sound heap) (halike : value.Alike heap other) (coordinates : List Nat) :
    value.peek other coordinates = value.peek heap coordinates := by
  rw [peek, peek, elementAt_congr halike]
  cases hitem : value.elementAt heap coordinates with
  | error failure => rfl
  | ok item =>
    rw [ok_bind, ok_bind]
    rcases elementAt_eq_ok h.formed hitem with ⟨x, hdata, rfl⟩ | ⟨ref, offset, found, hdata, hin, -, rfl⟩
    · rw [held, held, hdata]
    · obtain ⟨-, -, hsame⟩ := halike ref offset hdata
      obtain ⟨-, size, hsize, -⟩ := h.host hdata
      rw [held_host, held_host, hsame size hsize _ (Layout.place_lt_memorySize hsize hin)]

theorem dtype_of_get? {buffer : HostBuffer} {index : Nat} (h : buffer.get? index = some x) : x.dtype = buffer.dtype :=
  buffer.homogeneous x (Array.mem_of_getElem? h)

/-- What a value of rank 0 holds is an immediate or an element of storage. There
    is no third kind on the host. -/
theorem held_eq_ok {item : Value} (h : item.held heap = .ok x) : item.data = .constant x ∨
    ∃ ref offset, item.data = .host ref offset ∧ (heap.get ref).get? offset = some x := by
  simp only [held, bind_eq_ok_iff, liftM_layoutError_eq_ok_iff] at h
  obtain ⟨_, -, h⟩ := h
  split at h
  · next hdata =>
    cases h
    exact .inl hdata
  · next ref offset hdata =>
    split at h
    · next hx =>
      cases h
      exact .inr ⟨ref, offset, hdata, hx⟩
    · cases h
  · cases h
  · cases h

/-- An element is of the type of the value. Buffers hold numbers of their own
    type only. -/
theorem dtype_of_peek (h : value.Sound heap) (hx : value.peek heap coordinates = .ok x) : x.dtype = value.dtype := by
  simp only [peek, bind_eq_ok_iff] at hx
  obtain ⟨item, hitem, hheld⟩ := hx
  rcases elementAt_eq_ok h.formed hitem with ⟨y, hdata, rfl⟩ | ⟨ref, offset, found, hdata, -, hdtype, rfl⟩
  · rcases held_eq_ok hheld with hsame | ⟨ref, offset, hhost, -⟩
    · have hmade := h.made
      rw [hsame] at hmade
      simp only [make] at hmade
      split at hmade
      · cases hmade
      · next hdtype => exact not_not.mp hdtype
    · cases hdata.symm.trans hhost
  · rcases held_eq_ok hheld with hsame | ⟨ref', offset', hhost, hget⟩
    · cases hsame
    · cases hhost
      rw [dtype_of_get? hget, hdtype]

/-- The element of a source that belongs to given coordinates. A source of rank
    0 stands for each element. -/
def sourceAt (heap : Heap) (value : Value) (coordinates : List Nat) : Outcome Value :=
  if value.rank = 0 then .ok value else value.elementAt heap coordinates

/-- The immediate of a source that belongs to given coordinates. A source of
    rank 0 has the same one for all. -/
def peekSource (heap : Heap) (value : Value) (coordinates : List Nat) : Outcome Numeric := do
  (← value.sourceAt heap coordinates).held heap

/-- It is the same in heaps in which its storage is. -/
theorem held_congr (halike : value.Alike heap other) (hrank : value.rank = 0) :
    value.held other = value.held heap := by
  unfold held
  cases hdata : value.data with
  | constant x => rfl
  | register id => rfl
  | buffer id place => rfl
  | host ref offset =>
    obtain ⟨-, -, hsame⟩ := halike ref offset hdata
    have hget := hsame 1 (Layout.memorySize_of_rank_zero hrank) 0 Nat.one_pos
    rw [Nat.add_zero] at hget
    simp only [hget]

/-- So is what an update reads from its right operand. -/
theorem peekSource_congr (h : value.Sound heap) (halike : value.Alike heap other) (coordinates : List Nat) :
    value.peekSource other coordinates = value.peekSource heap coordinates := by
  unfold peekSource sourceAt
  by_cases hrank : value.rank = 0
  · simp only [if_pos hrank, ok_bind]
    exact held_congr halike hrank
  · simp only [if_neg hrank]
    exact peek_congr h halike coordinates

/-- The coordinate list of length zero leads to what a value of rank 0 holds. -/
theorem peek_nil (h : value.Sound heap) (hrank : value.rank = 0) : value.peek heap [] = value.held heap := by
  have hindices : Scalar.indices [] = .ok [] := rfl
  obtain ⟨dtype, ⟨extents, increments⟩, data⟩ := value
  obtain rfl : extents = [] := List.length_eq_zero_iff.mp hrank
  obtain rfl : increments = [] := List.length_eq_zero_iff.mp h.formed
  cases data with
  | constant x => rfl
  | register id => rfl
  | buffer id place => rfl
  | host ref offset =>
    rw [peek, elementAt_host h rfl hindices .nil, ok_bind]
    rfl

end Value

end StagedArrays
