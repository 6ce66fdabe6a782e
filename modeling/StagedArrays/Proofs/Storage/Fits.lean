import StagedArrays.Proofs.Allocator.Advance
import StagedArrays.Proofs.Storage.Peek

namespace StagedArrays

/-- Each scalar is read as one coordinate. -/
theorem Direct.length_of_readIndices {scalars : List Scalar} {coordinates : List Nat} {heap after : Heap}
    (h : (readIndices scalars).runFrom heap = (.ok coordinates, after)) : coordinates.length = scalars.length := by
  induction scalars generalizing coordinates heap with
  | nil =>
    cases h
    rfl
  | cons s scalars ih =>
    obtain ⟨index, between, -, h⟩ := Stateful.runFrom_bind_eq_ok.mp h
    obtain ⟨rest, final, hrest, h⟩ := Stateful.runFrom_bind_eq_ok.mp h
    cases h
    rw [List.length_cons, List.length_cons, ih hrest]

namespace Value

/-- The element at coordinates inside a sound value, by whatever scalars they
    are read from. -/
theorem Sound.runFrom_element {heap : Heap} {value : Value} {ref : HostRef} {offset : Nat} {scalars : List Scalar}
    {coordinates : List Nat} (h : value.Sound heap) (hdata : value.data = .host ref offset)
    (hindices : (Direct.readIndices scalars).runFrom heap = (.ok coordinates, heap))
    (hin : Layout.InBounds coordinates value.layout.extents) :
    (Direct.element value scalars).runFrom heap =
      (.ok ⟨value.dtype, .scalar, .host ref (offset + value.layout.place coordinates)⟩, heap) := by
  have hrank : value.layout.rank = scalars.length :=
    hin.length_eq.symm.trans (Direct.length_of_readIndices hindices)
  rw [Direct.runFrom_element_host hdata hrank hindices, h.placed hdata hin]

/-- A value lies within its storage: it is as values are made, and its buffer is
    there. -/
structure Fits (heap : Heap) (value : Value) : Prop where
  sound : value.Sound heap
  known : ∀ ref offset, value.data = .host ref offset → ref.index < heap.buffers.size

variable {heap after : Heap} {value : Value} {dtype : DType} {layout : Layout} {data : ValueData} {ref : HostRef}
  {offset : Nat}

theorem host?_eq_some : value.host? = some (ref, offset) ↔ value.data = .host ref offset := by
  unfold host?
  split <;> simp_all

theorem eq_of_make (h : make heap dtype layout data = .ok value) : value = ⟨dtype, layout, data⟩ := by
  have hview : (⟨dtype, layout, data⟩ : Value).withLayout heap layout = .ok value := h
  exact (eq_of_withLayout hview).1

/-- A value that has been made fits, if its buffer is known. The check that
    makes it is about the rest. -/
theorem fits_of_make (h : make heap dtype layout data = .ok value) (hformed : layout.Formed)
    (hknown : ∀ ref offset, data = .host ref offset → ref.index < heap.buffers.size) : value.Fits heap := by
  obtain rfl := eq_of_make h
  exact ⟨⟨h, hformed⟩, hknown⟩

/-- An immediate needs no storage. -/
theorem fits_constant (heap : Heap) (x : Numeric) : (constant x).Fits heap := by
  have hmade : make heap x.dtype .scalar (.constant x) = .ok (constant x) := by
    simp only [make, ne_eq, not_true, ite_false]
    rfl
  exact fits_of_make hmade rfl fun _ _ h => by cases h

theorem fits_register (heap : Heap) (dtype : DType) (id : RegisterId) : (register dtype id).Fits heap := by
  have hmade : make heap dtype .scalar (.register id) = .ok (register dtype id) := rfl
  exact fits_of_make hmade rfl fun _ _ h => by cases h

theorem fits_buffer (heap : Heap) (dtype : DType) (hformed : layout.Formed) (id : BufferId) (place : Operand) :
    (⟨dtype, layout, .buffer id place⟩ : Value).Fits heap := by
  have hmade : make heap dtype layout (.buffer id place) = .ok ⟨dtype, layout, .buffer id place⟩ := rfl
  exact fits_of_make hmade hformed nofun

namespace Fits

/-- Buffers may be written and taken, as long as none changes its type or
    length. -/
theorem advance (h : value.Fits heap) (hadvances : heap.Advances after) : value.Fits after := by
  refine ⟨⟨?_, h.sound.formed⟩, fun ref offset hdata => (hadvances ref (h.known ref offset hdata)).1⟩
  rw [← h.sound.made]
  cases hdata : value.data with
  | constant x => rfl
  | register id => rfl
  | buffer id place => rfl
  | host ref offset =>
    obtain ⟨-, hdtype, hlength⟩ := hadvances ref (h.known ref offset hdata)
    exact make_congr hdtype hlength

theorem withLayout (h : value.Fits heap) {view : Value} (hformed : layout.Formed)
    (hview : value.withLayout heap layout = .ok view) : view.Fits heap :=
  fits_of_make hview hformed h.known

/-- An immediate is of the type of the value, and a scalar. -/
theorem constant_eq {x : Numeric} (h : value.Fits heap) (hdata : value.data = .constant x) :
    x.dtype = value.dtype ∧ value.rank = 0 := by
  have hmade := h.sound.made
  rw [hdata] at hmade
  simp only [make] at hmade
  split at hmade
  · cases hmade
  · next hdtype =>
    simp only [bind_eq_ok_iff, liftM_layoutError_eq_ok_iff, Layout.ensureRank_eq_ok] at hmade
    obtain ⟨_, hrank, -⟩ := hmade
    exact ⟨not_not.mp hdtype, hrank⟩

/-- A register holds a value of rank 0. -/
theorem rank_register {id : RegisterId} (h : value.Fits heap) (hdata : value.data = .register id) :
    value.rank = 0 := by
  have hmade := h.sound.made
  rw [hdata] at hmade
  simp only [make, bind_eq_ok_iff, liftM_layoutError_eq_ok_iff, Layout.ensureRank_eq_ok] at hmade
  obtain ⟨_, hrank, -⟩ := hmade
  exact hrank

/-- Host data are of the type of the value, and reach as far as its layout. The
    offset counts as part of it. -/
theorem host_eq (h : value.Fits heap) (hdata : value.data = .host ref offset) :
    (heap.get ref).dtype = value.dtype ∧
      ∃ size, value.layout.memorySize = .ok size ∧ offset + size ≤ (heap.get ref).length := by
  obtain ⟨hdtype, size, hsize, -, hle⟩ := h.sound.host hdata
  exact ⟨hdtype, size, hsize, hle⟩

/-- At each coordinate there is an element, which is read at the place that the
    layout leads to. -/
theorem exists_readAt {coordinates : List Nat} (h : value.Fits heap) (hdata : value.data = .host ref offset)
    (hin : Layout.InBounds coordinates value.layout.extents) :
    ∃ place x, value.layout.offset coordinates = .ok place ∧ (heap.get ref).get? (offset + place) = some x ∧
      readAt (heap.get ref) offset value.layout coordinates = .ok x := by
  obtain ⟨-, size, hsize, hbound, hle⟩ := h.sound.host hdata
  have hlt := Layout.place_lt_memorySize hsize hin
  have hoffset := Layout.offset_of_inBounds hsize hin
  have hinside : offset + value.layout.place coordinates < (heap.get ref).length := by omega
  obtain ⟨x, hx, -⟩ := HostBuffer.exists_get? hinside
  have hadd : Word.add offset (value.layout.place coordinates) = .ok (offset + value.layout.place coordinates) :=
    Word.add_eq_ok_iff.mpr ⟨rfl, by omega⟩
  refine ⟨_, x, hoffset, hx, ?_⟩
  simp only [readAt, hoffset, liftM_layoutFailure_ok, ok_bind, hadd, liftM_fault_ok, hx]
  rfl

/-- The elements of a value that has room for them are read in row-major
    order. -/
theorem exists_toList {count : Nat} {target : DType} (h : value.Fits heap) (hdata : value.data = .host ref offset)
    (hcount : value.size = .ok count) (hroom : count * target.size < Word.bound / 2) :
    ∃ elements, value.toList heap target = .ok (elements.map (·.cast target)) ∧
      List.Forall₂ (fun coordinates x => ∃ place, value.layout.offset coordinates = .ok place ∧
        (heap.get ref).get? (offset + place) = some x) (Layout.rowMajor value.layout.extents) elements := by
  have hread (coordinates : List (List Nat))
      (hin : ∀ c ∈ coordinates, Layout.InBounds c value.layout.extents) :
      ∃ elements, coordinates.mapM (readAt (heap.get ref) offset value.layout) = .ok elements ∧
        List.Forall₂ (fun coordinates x => ∃ place, value.layout.offset coordinates = .ok place ∧
          (heap.get ref).get? (offset + place) = some x) coordinates elements := by
    induction coordinates with
    | nil => exact ⟨[], rfl, .nil⟩
    | cons first rest ih =>
      obtain ⟨place, x, hplace, hx, hfirst⟩ := h.exists_readAt hdata (hin first List.mem_cons_self)
      obtain ⟨elements, hrest, helements⟩ := ih fun c hc => hin c (List.mem_cons_of_mem _ hc)
      refine ⟨x :: elements, ?_, .cons ⟨place, hplace, hx⟩ helements⟩
      rw [List.mapM_cons, hfirst, ok_bind, hrest]
      rfl
  obtain ⟨elements, hmap, helements⟩ := hread value.layout.coordinates fun _ hc => Layout.mem_coordinates.mp hc
  have hreserve : target.reserve count = .ok () := if_pos hroom
  refine ⟨elements, ?_, Layout.coordinates_eq value.layout ▸ helements⟩
  simp only [toList, hdata, hcount, liftM_fault_ok, ok_bind, hreserve, hmap]
  rfl

/-- The element at coordinates within the extents is there, and holds what lies
    where the layout leads to. -/
theorem exists_element {scalars : List Scalar} {coordinates : List Nat} (h : value.Fits heap)
    (hdata : value.data = .host ref offset)
    (hindices : (Direct.readIndices scalars).runFrom heap = (.ok coordinates, heap))
    (hin : Layout.InBounds coordinates value.layout.extents) :
    ∃ item x place, (Direct.element value scalars).runFrom heap = (.ok item, heap) ∧
      (Direct.load item).runFrom heap = (.ok (.constant x), heap) ∧
      value.layout.offset coordinates = .ok place ∧ (heap.get ref).get? (offset + place) = some x := by
  obtain ⟨place, x, hplace, hx, -⟩ := h.exists_readAt hdata hin
  obtain rfl : place = value.layout.place coordinates := (Layout.place_eq_of_offset hplace).2
  exact ⟨_, x, _, h.sound.runFrom_element hdata hindices hin, Direct.runFrom_load (reads_host rfl rfl hx), hplace, hx⟩

end Fits

end Value

end StagedArrays
