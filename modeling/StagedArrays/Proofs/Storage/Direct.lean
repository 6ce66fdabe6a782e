import StagedArrays.Context.Direct
import StagedArrays.Proofs.Layout.Span
import StagedArrays.Proofs.Numeric.Index
import StagedArrays.Proofs.Related

namespace StagedArrays

namespace ValueError

/-- A coordinate was refused: it is no index, or it reaches the extent of its
    dimension. -/
def RefusesCoordinate (cause : ValueError) : Prop :=
  (∃ x, cause = .invalidArgument (.notAnIndex x)) ∨
    ∃ dim index extent, cause = .layout (.indexOutOfBounds dim index extent)

/-- A layout was refused: it reaches beyond the storage it is to be laid
    over. -/
def RefusesLayout (cause : ValueError) : Prop := ∃ expected got, cause = .sizeMismatch expected got

end ValueError

namespace Layout

/-- A rank is accepted exactly if it is the one expected. The check changes
    nothing. -/
@[simp]
theorem ensureRank_eq_ok {layout : Layout} {expected : Nat} {u : Unit} :
    layout.ensureRank expected = .ok u ↔ layout.rank = expected := by
  unfold ensureRank
  split <;> simp_all

/-- A layout of rank 0 has one element. -/
theorem memorySize_of_rank_zero {layout : Layout} (h : layout.rank = 0) : layout.memorySize = .ok 1 := by
  obtain ⟨extents, increments⟩ := layout
  have hextents : extents = [] := List.length_eq_zero_iff.mp h
  subst hextents
  rfl

end Layout

namespace Scalar

/-- A value is read as a scalar if it is the value of one. -/
theorem ofValue_eq_ok {value : Value} {s : Scalar} :
    (liftM (ofValue value) : Outcome Scalar) = .ok s ↔ s.value = value := by
  rw [liftM_layoutError_eq_ok_iff, ofValue]
  obtain ⟨found, hrank⟩ := s
  split
  · simp [eq_comm]
  · next hne =>
    simp only [reduceCtorEq, false_iff]
    rintro rfl
    exact hne hrank

end Scalar

namespace Vector

/-- The same for vectors. -/
theorem ofValue_eq_ok {value : Value} {v : Vector} :
    (liftM (ofValue value) : Outcome Vector) = .ok v ↔ v.value = value := by
  rw [liftM_layoutError_eq_ok_iff, ofValue]
  obtain ⟨found, hrank⟩ := v
  split
  · simp [eq_comm]
  · next hne =>
    simp only [reduceCtorEq, false_iff]
    rintro rfl
    exact hne hrank

end Vector

namespace Matrix

/-- The same for matrices. -/
theorem ofValue_eq_ok {value : Value} {m : Matrix} :
    (liftM (ofValue value) : Outcome Matrix) = .ok m ↔ m.value = value := by
  rw [liftM_layoutError_eq_ok_iff, ofValue]
  obtain ⟨found, hrank⟩ := m
  split
  · simp [eq_comm]
  · next hne =>
    simp only [reduceCtorEq, false_iff]
    rintro rfl
    exact hne hrank

end Matrix

namespace HostBuffer

/-- Every position of a buffer holds an immediate of the element type. -/
theorem exists_get? {buffer : HostBuffer} {index : Nat} (h : index < buffer.length) :
    ∃ x, buffer.get? index = some x ∧ x.dtype = buffer.dtype :=
  ⟨buffer.elements[index], Array.getElem?_eq_getElem h, buffer.homogeneous _ (Array.getElem_mem h)⟩

/-- Writing an element changes this element and no other. The length of the
    buffer stays the same. -/
theorem get?_of_set {buffer next : HostBuffer} {index : Nat} {x : Numeric}
    (h : buffer.set index x = .ok next) (other : Nat) :
    next.get? other = if other = index then some x else buffer.get? other := by
  unfold set at h
  split at h
  · split at h
    · next hlt =>
      cases h
      simp only [get?, Array.getElem?_set, eq_comm]
    · cases h
  · cases h

/-- A number of the right type can be written at each position of a buffer.
    Positions beyond the end are refused. -/
theorem exists_set {buffer : HostBuffer} {index : Nat} {x : Numeric} (hdtype : x.dtype = buffer.dtype)
    (hlt : index < buffer.length) : ∃ next, buffer.set index x = .ok next := by
  unfold set
  rw [dif_pos hdtype, dif_pos (show index < buffer.elements.size from hlt)]
  exact ⟨_, rfl⟩

end HostBuffer

namespace Heap

variable (heap : Heap) (ref : HostRef) (buffer : HostBuffer)

@[simp]
theorem size_put : (heap.put ref buffer).buffers.size = heap.buffers.size := by simp [put]

@[simp]
theorem size_add : (heap.add buffer).2.buffers.size = heap.buffers.size + 1 := by simp [add]

end Heap

namespace HeapM

@[simp]
theorem runFrom_read (ref : HostRef) (heap : Heap) :
    (HeapM.read ref).runFrom heap = (.ok (heap.get ref), heap) := rfl

/-- A write replaces the buffer by one with the element changed. The other
    buffers stay. -/
theorem runFrom_write {heap : Heap} {ref : HostRef} {index : Nat} {x : Numeric} {buffer : HostBuffer}
    (h : (heap.get ref).set index x = .ok buffer) :
    (write ref index x).runFrom heap = (.ok (), heap.put ref buffer) := by
  simp only [write, Stateful.runFrom_bind, runFrom_read, Stateful.runFrom_liftM, h, liftM_error_ok,
    Stateful.runFrom_modify]

end HeapM

namespace Value

theorem asConstant?_eq_some {value : Value} {x : Numeric} :
    value.asConstant? = some x ↔ value.data = .constant x := by
  unfold asConstant?
  split <;> simp_all

/-- An element type is accepted exactly if it is the one expected. There are no
    conversions. -/
@[simp]
theorem ensureDType_eq_ok {value : Value} {dtype : DType} {u : Unit} :
    value.ensureDType dtype = .ok u ↔ value.dtype = dtype := by
  unfold ensureDType
  split <;> simp_all

/-- Reading a value gives an immediate and changes nothing. -/
def Reads (heap : Heap) (value : Value) (x : Numeric) : Prop :=
  (Direct.read value).runFrom heap = (.ok x, heap)

variable {heap : Heap} {value : Value}

theorem reads_constant {x : Numeric} (hrank : value.layout.rank = 0) (hdata : value.data = .constant x) :
    value.Reads heap x := by
  simp [Reads, Direct.read, Layout.ensureRank, hrank, hdata]

/-- A value of rank 0 on the host reads as the element at its offset. There has
    to be one. -/
theorem reads_host {ref : HostRef} {offset : Nat} {x : Numeric} (hrank : value.layout.rank = 0)
    (hdata : value.data = .host ref offset) (hx : (heap.get ref).get? offset = some x) :
    value.Reads heap x := by
  simp [Reads, Direct.read, Stateful.runFrom_bind, Layout.ensureRank, hrank, hdata, hx]

/-- Host data of a layout is made exactly if it is of the element type and holds
    as much. -/
theorem make_host_eq_ok {dtype : DType} {layout : Layout} {ref : HostRef} {offset : Nat} {v : Value} :
    make heap dtype layout (.host ref offset) = .ok v ↔
      (heap.get ref).dtype = dtype ∧
        (∃ size, layout.memorySize = .ok size ∧ offset + size < Word.bound ∧
          offset + size ≤ (heap.get ref).length) ∧
        v = ⟨dtype, layout, .host ref offset⟩ := by
  unfold make
  by_cases hdtype : (heap.get ref).dtype = dtype
  · simp only [hdtype, ne_eq, not_true, ite_false, bind_eq_ok_iff, liftM_fault_eq_ok_iff,
      Word.add_eq_ok_iff, true_and]
    constructor
    · rintro ⟨size, hsize, _, ⟨rfl, hbound⟩, h⟩
      split at h
      · cases h
      · next hle =>
        cases h
        exact ⟨⟨size, hsize, hbound, Nat.le_of_not_lt hle⟩, rfl⟩
    · rintro ⟨⟨size, hsize, hbound, hle⟩, rfl⟩
      exact ⟨size, hsize, _, ⟨rfl, hbound⟩, by rw [if_neg (Nat.not_lt_of_le hle)]; rfl⟩
  · simp only [ne_eq, hdtype, not_false_iff, ite_true, false_and, iff_false]
    rintro ⟨⟩

/-- Host data of the element type is refused only where the layout reaches too
    far. -/
theorem make_host_eq_error {layout : Layout} {ref : HostRef} {offset : Nat} {cause : ValueError}
    (h : make heap (heap.get ref).dtype layout (.host ref offset) = .error (.error cause)) :
    cause.RefusesLayout := by
  unfold make at h
  simp only [ne_eq, not_true, ite_false] at h
  cases hsize : layout.memorySize with
  | error fault =>
    rw [hsize] at h
    cases h
  | ok size =>
    cases hadd : Word.add offset size with
    | error fault =>
      rw [hsize] at h
      simp only [liftM_fault_ok, bind, Except.bind, hadd] at h
      cases h
    | ok needed =>
      rw [hsize] at h
      simp only [liftM_fault_ok, bind, Except.bind, hadd] at h
      split at h
      · cases h
        exact ⟨_, _, rfl⟩
      · cases h

/-- What a view is made of. The storage has been found to reach far enough. -/
theorem eq_of_withLayout {value view : Value} {layout : Layout}
    (h : value.withLayout heap layout = .ok view) :
    view = ⟨value.dtype, layout, value.data⟩ ∧ (layout.rank = 0 ∨ value.isAddressable = true) := by
  obtain ⟨dtype, shape, data⟩ := value
  cases data with
  | constant x =>
    simp only [withLayout, make] at h
    split at h
    · cases h
    · simp only [bind_eq_ok_iff, liftM_layoutError_eq_ok_iff, Layout.ensureRank_eq_ok] at h
      obtain ⟨_, hrank, h⟩ := h
      cases h
      exact ⟨rfl, .inl hrank⟩
  | register id =>
    simp only [withLayout, make, bind_eq_ok_iff, liftM_layoutError_eq_ok_iff, Layout.ensureRank_eq_ok] at h
    obtain ⟨_, hrank, h⟩ := h
    cases h
    exact ⟨rfl, .inl hrank⟩
  | host ref offset => exact ⟨(make_host_eq_ok.mp h).2.2, .inr rfl⟩
  | buffer id place =>
    cases h
    exact ⟨rfl, .inr rfl⟩

/-- A value reads as at most one number. -/
theorem Reads.unique {x y : Numeric} (h : value.Reads heap x) (h' : value.Reads heap y) : x = y := by
  rw [Reads] at h
  rw [Reads, h] at h'
  cases h'
  rfl

end Value

namespace Scalar

/-- A scalar leads to a coordinate. -/
def Points (heap : Heap) (s : Scalar) (index : Nat) : Prop :=
  ∃ x, s.value.Reads heap x ∧ x.asIndex = .ok index

variable {heap : Heap}

/-- A scalar points to at most one index. -/
theorem Points.unique {s : Scalar} {i j : Nat} (h : s.Points heap i) (h' : s.Points heap j) : i = j := by
  obtain ⟨x, hx, hi⟩ := h
  obtain ⟨y, hy, hj⟩ := h'
  rw [hx.unique hy] at hi
  cases hi.symm.trans hj
  rfl

/-- Scalars point to at most one list of indices. -/
theorem eq_of_points {scalars : List Scalar} {indices others : List Nat}
    (h : List.Forall₂ (Points heap) scalars indices) (h' : List.Forall₂ (Points heap) scalars others) :
    indices = others := by
  induction h generalizing others with
  | nil =>
    cases h'
    rfl
  | cons hfirst _ ih =>
    obtain ⟨other, others, hother, hothers, rfl⟩ := List.forall₂_cons_left_iff.mp h'
    rw [hfirst.unique hother, ih hothers]

/-- Scalars that can be read lead to coordinates, unless one of them holds
    none. -/
theorem readIndices_of_reads {scalars : List Scalar} (h : ∀ s ∈ scalars, ∃ x, s.value.Reads heap x) :
    (∃ indices, (Direct.readIndices scalars).runFrom heap = (.ok indices, heap) ∧
        List.Forall₂ (Points heap) scalars indices) ∨
      ∃ x, (Direct.readIndices scalars).runFrom heap =
          (.error (.error (.invalidArgument (.notAnIndex x))), heap) ∧
        ∀ indices, ¬List.Forall₂ (Points heap) scalars indices := by
  induction scalars with
  | nil => exact .inl ⟨[], rfl, .nil⟩
  | cons s scalars ih =>
    obtain ⟨x, hx⟩ := h s List.mem_cons_self
    have hread : (Direct.readIndex s).runFrom heap = (liftM x.asIndex, heap) := by
      rw [Direct.readIndex, Stateful.runFrom_bind_of_ok hx, Stateful.runFrom_liftM]
    cases hindex : x.asIndex with
    | error cause =>
      have hcause : cause = .invalidArgument (.notAnIndex x) := by
        unfold Numeric.asIndex at hindex
        split at hindex <;> cases hindex
        rfl
      subst hcause
      rw [hindex] at hread
      refine .inr ⟨x, Stateful.runFrom_bind_of_error hread _, fun indices hpoints => ?_⟩
      obtain ⟨_, _, ⟨y, hy, hok⟩, -, -⟩ := List.forall₂_cons_left_iff.mp hpoints
      rw [← hx.unique hy, hindex] at hok
      cases hok
    | ok index =>
      rw [hindex] at hread
      have hstep := Stateful.runFrom_bind_of_ok hread fun index => do
        return index :: (← Direct.readIndices scalars)
      rcases ih fun t ht => h t (List.mem_cons_of_mem _ ht) with
        ⟨indices, hrest, hpoints⟩ | ⟨y, hrest, hnone⟩
      · refine .inl ⟨index :: indices, ?_, .cons ⟨x, hx, hindex⟩ hpoints⟩
        exact hstep.trans (Stateful.runFrom_bind_of_ok hrest _)
      · refine .inr ⟨y, hstep.trans (Stateful.runFrom_bind_of_error hrest _), fun indices hpoints => ?_⟩
        obtain ⟨_, others, -, hothers, -⟩ := List.forall₂_cons_left_iff.mp hpoints
        exact hnone others hothers

end Scalar

namespace Direct

variable {heap : Heap} {value : Value}

theorem runFrom_load {x : Numeric} (h : value.Reads heap x) :
    (load value).runFrom heap = (.ok (.constant x), heap) := by
  rw [load, Stateful.runFrom_bind_of_ok h, Stateful.runFrom_pure]

/-- An operation on values of rank 0 gives an immediate. Nothing is stored. -/
theorem runFrom_binary {a b : Value} {x y : Numeric} (op : BinaryOp) (ha : a.Reads heap x)
    (hb : b.Reads heap y) :
    (binary op a b).runFrom heap = ((x.binary op y).mapError .error |>.map Value.constant, heap) := by
  rw [binary, Stateful.runFrom_bind_of_ok ha, Stateful.runFrom_bind_of_ok hb]
  cases x.binary op y <;> rfl

/-- Storage of a representable layout, if there is room for it, is taken under
    the next reference, and holds zeros. -/
theorem runFrom_allocate {dtype : DType} {layout : Layout} {size : Nat} (h : layout.memorySize = .ok size)
    (hroom : dtype.reserve size = .ok ()) :
    (allocate dtype layout).runFrom heap =
      (.ok ⟨dtype, layout, .host ⟨heap.buffers.size⟩ 0⟩, (heap.add (.zeros dtype size)).2) := by
  have hget : (heap.add (.zeros dtype size)).2.get ⟨heap.buffers.size⟩ = .zeros dtype size :=
    heap.get_add_self _
  have hmake : Value.make (heap.add (.zeros dtype size)).2 dtype layout (.host ⟨heap.buffers.size⟩ 0) =
      .ok ⟨dtype, layout, .host ⟨heap.buffers.size⟩ 0⟩ := by
    rw [Value.make_host_eq_ok, hget]
    refine ⟨rfl, ⟨size, h, ?_, ?_⟩, rfl⟩
    · rw [Nat.zero_add]
      exact Layout.memorySize_lt_bound h
    · exact Nat.le_of_eq (by rw [HostBuffer.length_zeros, Nat.zero_add])
  simp only [allocate, h, HostBuffer.allocate_of_reserve hroom, HeapM.host, HeapM.alloc, Stateful.runFrom_bind,
    Stateful.runFrom_liftM, liftM_fault_ok, Stateful.runFrom_get, Stateful.runFrom_set, Stateful.runFrom_pure]
  exact Prod.ext hmake rfl

/-- Without room nothing is taken. There is a fault, and the heap is as
    before. -/
theorem runFrom_allocate_of_full {dtype : DType} {layout : Layout} {size : Nat} {fault : Fault}
    (h : layout.memorySize = .ok size) (hroom : dtype.reserve size = .error fault) :
    (allocate dtype layout).runFrom heap = (.error (.fault fault), heap) := by
  rw [allocate, Stateful.runFrom_bind, Stateful.runFrom_liftM, h]
  simp only [liftM_fault_ok, HostBuffer.allocate_of_reserve_error hroom, Stateful.runFrom_bind, Stateful.runFrom_liftM]
  rfl

/-- Storage that has been taken could be measured, and had room. This is read
    off the success. -/
theorem reserve_of_allocate {dtype : DType} {layout : Layout} {value : Value} {after : Heap}
    (h : (allocate dtype layout).runFrom heap = (.ok value, after)) :
    (do dtype.reserve (← layout.memorySize) : Except Fault Unit) = .ok () := by
  obtain ⟨size, _, hsize, -⟩ := Stateful.runFrom_bind_eq_ok.mp h
  have hsize : layout.memorySize = .ok size := liftM_fault_eq_ok_iff.mp (congrArg Prod.fst hsize)
  rw [hsize, ok_bind]
  rcases dtype.reserve_cases size with hroom | hroom
  · exact hroom
  · rw [runFrom_allocate_of_full hsize hroom] at h
    cases h

/-- What is stored is what the source reads as. The buffer is replaced by one
    with that element changed. -/
theorem runFrom_store {destination source : Value} {ref : HostRef} {offset : Nat} {x : Numeric}
    {buffer : HostBuffer} (hrank : destination.layout.rank = 0) (hdata : destination.data = .host ref offset)
    (hdtype : source.dtype = destination.dtype) (hx : source.Reads heap x)
    (hset : (heap.get ref).set offset x = .ok buffer) :
    (store destination source).runFrom heap = (.ok (), heap.put ref buffer) := by
  have hensure : destination.layout.ensureRank 0 = .ok () := Layout.ensureRank_eq_ok.mpr hrank
  have hsame : source.ensureDType destination.dtype = .ok () := Value.ensureDType_eq_ok.mpr hdtype
  simp only [store, hensure, hsame, hdata, Stateful.runFrom_bind, Stateful.runFrom_liftM,
    liftM_layoutError_ok, liftM_error_ok]
  rw [show (read source).runFrom heap = (.ok x, heap) from hx]
  exact HeapM.runFrom_write hset

/-- Scalars that lead to coordinates are read as these. -/
theorem readIndices_of_points {scalars : List Scalar} {indices : List Nat}
    (h : List.Forall₂ (Scalar.Points heap) scalars indices) : (readIndices scalars).runFrom heap = (.ok indices, heap) := by
  have hreads : ∀ s ∈ scalars, ∃ x, s.value.Reads heap x :=
    forall_of_forall₂ h fun s index ⟨x, hx, _⟩ => ⟨x, hx⟩
  rcases Scalar.readIndices_of_reads hreads with ⟨others, hread, hpoints⟩ | ⟨x, -, hnone⟩
  · rwa [Scalar.eq_of_points h hpoints]
  · exact (hnone indices h).elim

/-- No element is looked for where a coordinate cannot be read. The error is
    that of the coordinate. -/
theorem runFrom_element_of_error {scalars : List Scalar} {failure : Failure ValueError}
    (hrank : value.layout.rank = scalars.length) (h : (readIndices scalars).runFrom heap = (.error failure, heap)) :
    (element value scalars).runFrom heap = (.error failure, heap) := by
  have hensure : value.layout.ensureRank scalars.length = .ok () := Layout.ensureRank_eq_ok.mpr hrank
  simp only [element, hensure, Stateful.runFrom_bind, Stateful.runFrom_liftM, liftM_layoutError_ok, h]

/-- The element of a host value is found by arithmetic on the coordinates
    read. -/
theorem runFrom_element_host {ref : HostRef} {offset : Nat} {scalars : List Scalar} {indices : List Nat}
    (hdata : value.data = .host ref offset) (hrank : value.layout.rank = scalars.length)
    (hindices : (readIndices scalars).runFrom heap = (.ok indices, heap)) :
    (element value scalars).runFrom heap =
      ((do
        let place ← Word.add offset (← value.layout.offset indices)
        Value.make heap value.dtype .scalar (.host ref place) : Outcome Value), heap) := by
  have hensure : value.layout.ensureRank scalars.length = .ok () := Layout.ensureRank_eq_ok.mpr hrank
  simp only [element, hensure, hdata, Stateful.runFrom_bind, Stateful.runFrom_liftM, liftM_layoutError_ok, hindices]
  cases value.layout.offset indices with
  | error failure => rfl
  | ok place =>
    simp only [liftM_layoutFailure_ok]
    change _ = ((liftM (Word.add offset place) : Outcome Nat) >>= _, heap)
    cases hadd : Word.add offset place with
    | error fault => rfl
    | ok total => rfl

/-- The element at coordinates inside a value. It is a value of rank 0 in the
    same buffer. -/
theorem element_of_inBounds {ref : HostRef} {offset size : Nat} {indices : List Nat}
    (hdtype : (heap.get ref).dtype = value.dtype) (hsize : value.layout.memorySize = .ok size)
    (hbound : offset + size < Word.bound) (hle : offset + size ≤ (heap.get ref).length)
    (hinBounds : Layout.InBounds indices value.layout.extents) :
    (do
        let place ← Word.add offset (← value.layout.offset indices)
        Value.make heap value.dtype .scalar (.host ref place) : Outcome Value) =
      .ok ⟨value.dtype, .scalar, .host ref (offset + value.layout.place indices)⟩ := by
  have hlt := Layout.place_lt_memorySize hsize hinBounds
  simp only [bind_eq_ok_iff, liftM_fault_eq_ok_iff, liftM_layoutFailure_eq_ok_iff,
    Layout.offset_of_inBounds hsize hinBounds, Word.add_eq_ok_iff, Value.make_host_eq_ok]
  exact ⟨_, rfl, _, ⟨rfl, by omega⟩, hdtype, ⟨1, rfl, by omega, by omega⟩, rfl⟩

/-- Scalars that lead to no coordinates inside a value are refused, unless the
    sum of the offset overflows. -/
theorem exists_runFrom_element_of_outside {ref : HostRef} {offset : Nat} {scalars : List Scalar}
    (hdata : value.data = .host ref offset) (hformed : value.layout.Formed) (hrank : value.layout.rank = scalars.length)
    (hreads : ∀ s ∈ scalars, ∃ x, s.value.Reads heap x)
    (hnone : ¬∃ indices, List.Forall₂ (Scalar.Points heap) scalars indices ∧
      Layout.InBounds indices value.layout.extents) :
    ∃ failure, (element value scalars).runFrom heap = (.error failure, heap) ∧
      ∀ cause, failure = .error cause → cause.RefusesCoordinate := by
  rcases Scalar.readIndices_of_reads hreads with ⟨indices, hindices, hpoints⟩ | ⟨x, hrefused, -⟩
  · have hlength : indices.length = value.layout.rank := hpoints.length_eq.symm.trans hrank.symm
    rw [runFrom_element_host hdata hrank hindices]
    rcases Layout.offset_of_not_inBounds hformed hlength fun hin => hnone ⟨indices, hpoints, hin⟩ with
      ⟨fault, hfault⟩ | ⟨dim, index, extent, hcause⟩
    · rw [hfault]
      exact ⟨.fault fault, rfl, fun _ heq => nomatch heq⟩
    · rw [hcause]
      refine ⟨_, rfl, ?_⟩
      rintro _ ⟨⟩
      exact .inr ⟨dim, index, extent, rfl⟩
  · refine ⟨_, runFrom_element_of_error hrank hrefused, ?_⟩
    rintro _ ⟨⟩
    exact .inl ⟨x, rfl⟩

end Direct

end StagedArrays
