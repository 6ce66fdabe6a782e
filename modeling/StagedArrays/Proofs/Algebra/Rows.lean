import StagedArrays.Proofs.Algebra.Totals
import StagedArrays.Proofs.Emission.Simulation
import StagedArrays.Proofs.Related
import StagedArrays.Proofs.Storage.Access
import StagedArrays.Proofs.Storage.Building

namespace StagedArrays

variable {σ : Type} {world : World σ} {ref : HostRef} {offset : Nat}

namespace Scalar

/-- The element at a place of host storage. -/
def ofPlace (dtype : DType) (ref : HostRef) (place : Nat) : Scalar := ⟨⟨dtype, .scalar, .host ref place⟩, rfl⟩

/-- What is stored in an element of host storage is what it holds then.
    Everything else is as it was. -/
theorem runFrom_store_ofPlace {dtype : DType} {place : Nat} {source : Scalar} {x : Numeric}
    (hcontext : world.contexts.head? = some .compute) (hknown : ref.index < world.heap.buffers.size)
    (hdtype : (world.heap.get ref).dtype = dtype) (hlt : place < (world.heap.get ref).length)
    (hsource : source.dtype = dtype) (hreads : source.value.Reads world.heap x) (hx : x.dtype = dtype) :
    ∃ heap, ((ofPlace dtype ref place).store source).runFrom world = (.ok (), { world with heap }) ∧
      world.heap.Advances heap ∧ (ofPlace dtype ref place).contents.runFrom heap = (.ok x, heap) := by
  obtain ⟨buffer, hset⟩ := HostBuffer.exists_set (hx.trans hdtype.symm) hlt
  have hrun : (Direct.store (ofPlace dtype ref place).value source.value).runFrom world.heap =
      (.ok (), world.heap.put ref buffer) := Direct.runFrom_store rfl rfl hsource hreads hset
  refine ⟨world.heap.put ref buffer, ?_, ?_, runFrom_contents (Value.reads_host rfl rfl ?_)⟩
  · rw [store, Stateful.runFrom_bind_of_ok (Action.runFrom_activeContext hcontext), Context.store,
      Action.runFrom_onHeap, hrun]
  · exact Heap.advances_put (HostBuffer.dtype_eq_of_set hset) (HostBuffer.length_eq_of_set hset)
  · rw [Heap.get_put_self _ _ hknown, HostBuffer.get?_of_set hset, if_pos rfl]

end Scalar

namespace Value

/-- An element of a host value is found in the direct context by scalars that
    lead to its coordinates. -/
theorem Sound.runFrom_element_ofPlace {value : Value} {scalars : List Scalar} {coordinates : List Nat}
    (h : value.Sound world.heap) (hdata : value.data = .host ref offset)
    (hcontext : world.contexts.head? = some .compute)
    (hpoints : List.Forall₂ (Scalar.Points world.heap) scalars coordinates)
    (hin : Layout.InBounds coordinates value.layout.extents) :
    (do Scalar.ofValue (← (← Action.activeContext).element value scalars) : Action σ Scalar).runFrom world =
      (.ok (.ofPlace value.dtype ref (offset + value.layout.place coordinates)), world) := by
  have helement := h.runFrom_element hdata (Direct.readIndices_of_points hpoints) hin
  rw [Stateful.runFrom_bind_of_ok (Action.runFrom_activeContext hcontext), Context.element,
    Stateful.runFrom_bind, Action.runFrom_onHeap, helement]
  exact Scalar.runFrom_ofValue (.ofPlace value.dtype ref (offset + value.layout.place coordinates)) world

end Value

namespace Matrix

variable {m : Matrix} {r down across : Nat}

/-- The extents of a matrix are its rows and its columns. It has no other
    dimensions. -/
theorem extents_eq (m : Matrix) : m.value.layout.extents = [m.rows, m.columns] := by
  obtain ⟨⟨dtype, ⟨extents, increments⟩, data⟩, hrank⟩ := m
  obtain ⟨rows, columns, rfl⟩ := List.length_eq_two.mp hrank
  rfl

theorem exists_increments (h : m.value.layout.Formed) : ∃ down across, m.value.layout.increments = [down, across] := by
  rw [Layout.Formed, m.extents_eq] at h
  exact List.length_eq_two.mp h

/-- The layout that a row is given: the extent and the increment of the second
    dimension, from the first element of the row on. -/
theorem runFrom_row {heap : Heap} (hincrements : m.value.layout.increments = [down, across])
    (hdata : m.value.data = .host ref offset) (r : Nat) :
    (m.row r).runFrom heap =
      ((do
        let start ← m.value.layout.offset [r, 0]
        let place ← Word.add offset start
        let view ← Value.make heap m.dtype ⟨[m.columns], [across]⟩ (.host ref place)
        Vector.ofValue view : Outcome Vector), heap) := by
  have hincrement : m.value.layout.increment 1 = .ok across := by
    rw [Layout.increment, hincrements]
    rfl
  have hhost : m.value.host? = some (ref, offset) := Value.host?_eq_some.mpr hdata
  have hstrided : Layout.strided [m.columns] [across] = .ok ⟨[m.columns], [across]⟩ := rfl
  simp only [row, Stateful.runFrom_bind, Stateful.runFrom_liftM]
  cases m.value.layout.offset [r, 0] with
  | error failure => rfl
  | ok start =>
    simp only [liftM_layoutFailure_ok, hincrement, liftM_layoutError_ok, hstrided, hhost, ok_bind,
      Stateful.runFrom_bind, Stateful.runFrom_get, Stateful.runFrom_liftM]
    cases Word.add offset start with
    | error fault => rfl
    | ok place =>
      simp only [liftM_fault_ok, ok_bind]
      cases Value.make heap m.dtype ⟨[m.columns], [across]⟩ (.host ref place) <;> rfl

/-- A row that the matrix does not have is out of bounds in the first dimension,
    and nothing is made. -/
theorem row_of_le {heap : Heap} (h : m.value.Sound heap) (hdata : m.value.data = .host ref offset) (hle : m.rows ≤ r) :
    (m.row r).runFrom heap = (.error (.error (.layout (.indexOutOfBounds 0 r m.rows))), heap) := by
  obtain ⟨down, across, hincrements⟩ := exists_increments h.formed
  have hrank : [r, 0].length = m.value.layout.rank := m.rank_eq.symm
  have hoffset : m.value.layout.offset [r, 0] = .error (.error (.indexOutOfBounds 0 r m.rows)) := by
    rw [Layout.offset_eq_offsetFrom hrank, m.extents_eq, hincrements]
    exact Layout.offsetFrom_cons_of_le hle
  rw [runFrom_row hincrements hdata, hoffset]
  rfl

/-- A row reaches no further than its matrix, counted from where the row
    begins. -/
theorem memorySize_row {size : Nat} (hsize : m.value.layout.memorySize = .ok size)
    (hincrements : m.value.layout.increments = [down, across]) (hlt : r < m.rows) (hcolumns : 0 < m.columns) :
    ∃ span, Layout.memorySize ⟨[m.columns], [across]⟩ = .ok span ∧ r * down + span ≤ size := by
  have hlast : Layout.InBounds [r, m.columns - 1] m.value.layout.extents := by
    rw [m.extents_eq]
    exact .cons hlt (.cons (Nat.sub_lt hcolumns Nat.one_pos) .nil)
  have hplace := Layout.place_lt_memorySize hsize hlast
  have hbound := Layout.memorySize_lt_bound hsize
  simp only [Layout.place, hincrements, List.zipWith_cons_cons, List.zipWith_nil_left, List.sum_cons, List.sum_nil] at hplace
  refine ⟨_, Layout.memorySize_of_lt ?_ ?_, ?_⟩
  · simpa using Nat.ne_of_lt hcolumns
  · simp only [Layout.reach, List.zip_cons_cons, List.zip_nil_left, List.map_cons, List.map_nil, List.sum_cons, List.sum_nil]
    omega
  · simp only [Layout.reach, List.zip_cons_cons, List.zip_nil_left, List.map_cons, List.map_nil, List.sum_cons, List.sum_nil]
    omega

/-- There is a view of a row that has a first element, and of no other. Its
    place has to be computed, and this cannot overflow inside. -/
theorem row_eq_ok_iff {heap : Heap} (h : m.value.Sound heap) (hdata : m.value.data = .host ref offset)
    (hincrements : m.value.layout.increments = [down, across]) {v : Vector} :
    ((m.row r).runFrom heap).1 = .ok v ↔ r < m.rows ∧ 0 < m.columns ∧
      v.value = ⟨m.dtype, ⟨[m.columns], [across]⟩, .host ref (offset + r * down)⟩ := by
  have hfirst : Layout.InBounds [r, 0] m.value.layout.extents ↔ r < m.rows ∧ 0 < m.columns := by
    rw [m.extents_eq]
    simp
  have hplace : m.value.layout.place [r, 0] = r * down := by simp [Layout.place, hincrements]
  obtain ⟨hdtype, size, hsize, hbound, hle⟩ := h.host hdata
  simp only [runFrom_row hincrements hdata, bind_eq_ok_iff, liftM_layoutFailure_eq_ok_iff, liftM_fault_eq_ok_iff,
    Layout.offset_eq_ok_iff h.formed, hfirst, hplace, Word.add_eq_ok_iff, Value.make_host_eq_ok,
    Vector.ofValue_eq_ok]
  constructor
  · rintro ⟨_, ⟨⟨hlt, hcolumns⟩, -, rfl⟩, _, ⟨rfl, -⟩, view, ⟨-, -, rfl⟩, hview⟩
    exact ⟨hlt, hcolumns, hview⟩
  · rintro ⟨hlt, hcolumns, hview⟩
    obtain ⟨span, hspan, hfits⟩ := memorySize_row hsize hincrements hlt hcolumns
    refine ⟨_, ⟨⟨hlt, hcolumns⟩, by omega, rfl⟩, _, ⟨rfl, by omega⟩, _, ⟨hdtype, ⟨span, hspan, ?_, ?_⟩, rfl⟩, hview⟩
    · omega
    · omega

/-- To take a row changes nothing on the host, whether or not there is such a
    row. It is only a view. -/
theorem row_state {heap : Heap} (h : m.value.Sound heap) (hdata : m.value.data = .host ref offset) :
    ((m.row r).runFrom heap).2 = heap := by
  obtain ⟨down, across, hincrements⟩ := exists_increments h.formed
  rw [runFrom_row hincrements hdata]

/-- A vector is a row of a matrix: it has an element for each column, lies in
    the storage of the matrix, and has each element in common with it. Whatever
    has been done to the storage since, both lead to the same scalar, and what
    is stored there is what it holds then. -/
structure IsRow (m : Matrix) (r : Nat) (heap : Heap) (v : Vector) : Prop where
  dtype_eq : v.dtype = m.dtype
  extents_eq : v.value.layout.extents = [m.columns]
  size_eq : m.columns < Word.bound → v.size = .ok m.columns
  storage : ∃ ref offset start, m.value.data = .host ref offset ∧ v.value.data = .host ref start
  element : ∀ c < m.columns, ∃ item : Scalar, ∀ (σ : Type) (later : World σ), heap.Advances later.heap →
    later.contexts.head? = some .compute →
    (∀ row column : Scalar, row.Points later.heap r → column.Points later.heap c →
      (v.element column).runFrom later = (.ok item, later) ∧
      (m.element row column).runFrom later = (.ok item, later)) ∧
    ∀ (source : Scalar) (x : Numeric), source.dtype = m.dtype → source.value.Reads later.heap x → x.dtype = m.dtype →
      ∃ heap, (item.store source).runFrom later = (.ok (), { later with heap }) ∧ later.heap.Advances heap ∧
        item.contents.runFrom heap = (.ok x, heap)

/-- A view that begins a number of rows down, with the increment of the columns,
    is that row. This is what the layout of a row comes to. -/
theorem isRow_of_eq {heap : Heap} {v : Vector} (h : m.value.Fits heap) (hdata : m.value.data = .host ref offset)
    (hincrements : m.value.layout.increments = [down, across]) (hlt : r < m.rows) (hv : v.value.Fits heap)
    (hview : v.value = ⟨m.dtype, ⟨[m.columns], [across]⟩, .host ref (offset + r * down)⟩) : m.IsRow r heap v where
  dtype_eq := by rw [Vector.dtype, hview]
  extents_eq := by rw [hview]
  size_eq hbound := by
    have hcount : Word.mul 1 m.columns = .ok m.columns := Word.mul_eq_ok_iff.mpr ⟨(Nat.one_mul _).symm, hbound⟩
    rw [Vector.size, Value.size, hview, Layout.elementCount, List.foldlM_cons, hcount]
    rfl
  storage := ⟨ref, offset, offset + r * down, hdata, by rw [hview]⟩
  element c hc := by
    have hin : Layout.InBounds [r, c] m.value.layout.extents := by
      rw [m.extents_eq]
      exact .cons hlt (.cons hc .nil)
    have hinRow : Layout.InBounds [c] v.value.layout.extents := by
      rw [hview]
      exact .cons hc .nil
    have hplace : offset + m.value.layout.place [r, c] = offset + r * down + c * across := by
      simp [Layout.place, hincrements, Nat.add_assoc]
    have hplaceRow : v.value.layout.place [c] = c * across := by simp [Layout.place, hview]
    refine ⟨.ofPlace m.dtype ref (offset + r * down + c * across), fun σ later hadvances hcontext => ⟨?_, ?_⟩⟩
    · intro row column hrow hcolumn
      constructor
      · have hitem := (hv.advance hadvances).sound.runFrom_element_ofPlace (by rw [hview]) hcontext
          (.cons hcolumn .nil) hinRow
        rw [hplaceRow, hview] at hitem
        rw [Vector.element, hview]
        exact hitem
      · have hitem := (h.advance hadvances).sound.runFrom_element_ofPlace hdata hcontext
          (.cons hrow (.cons hcolumn .nil)) hin
        rw [hplace] at hitem
        exact hitem
    · intro source x hsource hreads hx
      have hlater := h.advance hadvances
      obtain ⟨hdtype, size, hsize, -, hle⟩ := hlater.sound.host hdata
      have hbelow := Layout.place_lt_memorySize hsize hin
      exact Scalar.runFrom_store_ofPlace hcontext (hlater.known ref offset hdata) hdtype (by omega) hsource hreads hx

/-- A row is viewed exactly if it is one of the matrix and has an element, and
    then the view is the row. A row that the matrix does not have is refused,
    and nothing is changed. -/
theorem row_isRow {m : Matrix} (h : m.value.Fits world.heap) (hhost : m.value.host?.isSome) (r : Nat) :
    let run := (Action.onHeap (m.row r) : Action σ Vector).runFrom world
    run.2 = world ∧
    ((∃ v, run.1 = .ok v) ↔ r < m.rows ∧ 0 < m.columns) ∧
    (∀ v, run.1 = .ok v → m.IsRow r world.heap v) ∧
    (m.rows ≤ r → run.1 = .error (.error (.layout (.indexOutOfBounds 0 r m.rows)))) := by
  obtain ⟨⟨ref, offset⟩, hdata⟩ := Option.isSome_iff_exists.mp hhost
  rw [Value.host?_eq_some] at hdata
  obtain ⟨down, across, hincrements⟩ := exists_increments h.sound.formed
  have hrow (v : Vector) := row_eq_ok_iff (r := r) h.sound hdata hincrements (v := v)
  have hstate := row_state (r := r) h.sound hdata
  simp only [Action.runFrom_onHeap]
  refine ⟨?_, ⟨?_, ?_⟩, fun v hv => ?_, fun hle => ?_⟩
  · rw [hstate]
  · rintro ⟨v, hv⟩
    obtain ⟨hlt, hcolumns, -⟩ := (hrow v).mp hv
    exact ⟨hlt, hcolumns⟩
  · rintro ⟨hlt, hcolumns⟩
    exact ⟨⟨_, rfl⟩, (hrow _).mpr ⟨hlt, hcolumns, rfl⟩⟩
  · obtain ⟨hlt, -, hview⟩ := (hrow v).mp hv
    have hfits := (hands_row h r).2 v hv
    rw [Action.runFrom_onHeap] at hfits
    dsimp only at hfits
    rw [hstate] at hfits
    exact isRow_of_eq h hdata hincrements hlt hfits hview
  · rw [row_of_le h.sound hdata hle]

/-- Seven numbers on the host. -/
def septet : World Unit where
  heap := ⟨#[.zeros .i32 7]⟩
  client := ()

/-- Two rows of two, with gaps between rows and columns. -/
def spread : Matrix := ⟨⟨.i32, ⟨[2, 2], [3, 2]⟩, .host ⟨0⟩ 1⟩, rfl⟩

/-- The second of two rows with gaps between their elements is viewed as it
    lies. -/
theorem row_isRow_spread :
    spread.value.Fits septet.heap ∧ spread.value.host?.isSome ∧
      ∃ v, ((Action.onHeap (spread.row 1)).runFrom septet).1 = .ok v ∧ spread.IsRow 1 septet.heap v := by
  have hfits : spread.value.Fits septet.heap := ⟨⟨rfl, rfl⟩, fun ref offset hdata => by cases hdata; decide⟩
  obtain ⟨-, hiff, hrow, -⟩ := @row_isRow Unit septet spread hfits rfl 1
  obtain ⟨v, hv⟩ := hiff.mpr (by decide)
  exact ⟨hfits, rfl, v, hv, hrow v hv⟩

/-- Two rows without columns. -/
def bare : Matrix := ⟨⟨.i32, ⟨[2, 0], [0, 1]⟩, .host ⟨0⟩ 0⟩, rfl⟩

/-- A row without elements is refused, though the matrix has it. -/
theorem bare_row_refused :
    bare.value.Fits septet.heap ∧ 0 < bare.rows ∧
      ((Action.onHeap (bare.row 0)).runFrom septet).1 = .error (.error (.layout (.indexOutOfBounds 1 0 0))) :=
  ⟨⟨⟨rfl, rfl⟩, fun ref offset hdata => by cases hdata; decide⟩, by decide, rfl⟩

end Matrix

end StagedArrays
