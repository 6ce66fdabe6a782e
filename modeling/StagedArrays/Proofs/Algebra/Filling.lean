import StagedArrays.Algebra.Elementwise
import StagedArrays.Proofs.Context
import StagedArrays.Proofs.Storage.Peek

namespace StagedArrays

section MapM

variable {ε α β : Type} {f g : α → Except ε β} {xs : List α} {ys : List β}

/-- Computations along a list succeed together just where each of them does,
    with its own result. -/
theorem mapM_eq_ok_iff : xs.mapM f = .ok ys ↔ List.Forall₂ (fun x y => f x = .ok y) xs ys := by
  induction xs generalizing ys with
  | nil =>
    rw [List.forall₂_nil_left_iff, List.mapM_nil]
    exact ⟨fun h => (Except.ok.inj h).symm, fun h => h ▸ rfl⟩
  | cons x xs ih =>
    simp only [List.mapM_cons, bind_eq_ok_iff, List.forall₂_cons_left_iff]
    constructor
    · rintro ⟨y, hy, tail, htail, h⟩
      exact ⟨y, tail, hy, ih.mp htail, (Except.ok.inj h).symm⟩
    · rintro ⟨y, tail, hy, htail, rfl⟩
      exact ⟨y, hy, tail, ih.mpr htail, rfl⟩

/-- A list has outcomes if each of its members has one. -/
theorem exists_mapM (h : ∀ x ∈ xs, ∃ y, f x = .ok y) : ∃ ys, xs.mapM f = .ok ys := by
  induction xs with
  | nil => exact ⟨[], rfl⟩
  | cons x xs ih =>
    obtain ⟨y, hy⟩ := h x List.mem_cons_self
    obtain ⟨ys, hys⟩ := ih fun z hz => h z (List.mem_cons_of_mem _ hz)
    exact ⟨y :: ys, by rw [List.mapM_cons, hy, hys]; rfl⟩

/-- If a whole list is mapped, each of its members is. By what it means to map a
    list. -/
theorem exists_of_mapM (h : xs.mapM f = .ok ys) {x : α} (hx : x ∈ xs) : ∃ y, f x = .ok y := by
  obtain ⟨index, hlt, rfl⟩ := List.getElem_of_mem hx
  have hforall := mapM_eq_ok_iff.mp h
  exact ⟨_, hforall.get hlt (hforall.length_eq ▸ hlt)⟩

/-- Where each outcome is the same, so is the list of them. -/
theorem mapM_eq_replicate {y : β} (h : ∀ x ∈ xs, f x = .ok y) : xs.mapM f = .ok (List.replicate xs.length y) := by
  induction xs with
  | nil => rfl
  | cons x xs ih =>
    rw [List.mapM_cons, h x List.mem_cons_self, ih fun z hz => h z (List.mem_cons_of_mem _ hz)]
    rfl

/-- Only what is computed at the members of a list matters. -/
theorem mapM_congr (h : ∀ x ∈ xs, f x = g x) : xs.mapM f = xs.mapM g := by
  induction xs with
  | nil => rfl
  | cons x xs ih =>
    rw [List.mapM_cons, List.mapM_cons, h x List.mem_cons_self, ih fun y hy => h y (List.mem_cons_of_mem _ hy)]

end MapM

namespace Stateful

variable {ε σ α β : Type}

/-- A loop ends as its passes would, each after those before it. `inv` tells
    what the passes so far have led to, `touched` what is true of it even where
    a pass fails. -/
theorem runFrom_forM_of_outcomes (xs : List α) (body : α → Stateful ε σ Unit) (f : α → Except (Failure ε) β)
    (inv : List β → σ → Prop) (touched : σ → Prop) {state : σ} (htouched : ∀ ys s, inv ys s → touched s)
    (hstep : ∀ done x rest ys s, xs = done ++ x :: rest → ys.length = done.length → inv ys s →
      ∃ after, (body x).runFrom s = ((f x).map fun _ => (), after) ∧ touched after ∧
        ∀ y, f x = .ok y → inv (ys ++ [y]) after)
    (h : inv [] state) :
    ∃ after, (xs.forM body).runFrom state = ((xs.mapM f).map fun _ => (), after) ∧ touched after ∧
      ∀ ys, xs.mapM f = .ok ys → inv ys after := by
  suffices hgeneral : ∀ rest done ys s, xs = done ++ rest → ys.length = done.length → inv ys s →
      ∃ after, (rest.forM body).runFrom s = ((rest.mapM f).map fun _ => (), after) ∧ touched after ∧
        ∀ zs, rest.mapM f = .ok zs → inv (ys ++ zs) after by
    exact hgeneral xs [] [] state rfl rfl h
  intro rest
  induction rest with
  | nil =>
    intro done ys s _ _ hinv
    refine ⟨s, rfl, htouched ys s hinv, fun zs hzs => ?_⟩
    cases hzs
    simpa using hinv
  | cons x rest ih =>
    intro done ys s hxs hlength hinv
    obtain ⟨next, hrun, htouch, hnext⟩ := hstep done x rest ys s hxs hlength hinv
    have hforM : (x :: rest).forM body = body x >>= fun _ => rest.forM body := rfl
    rw [hforM, runFrom_bind, hrun, List.mapM_cons]
    cases hx : f x with
    | error failure => exact ⟨next, rfl, htouch, fun _ hzs => nomatch hzs⟩
    | ok y =>
      obtain ⟨after, hrest, htouch', hafter⟩ := ih (done ++ [x]) (ys ++ [y]) next (by simp [hxs]) (by simp [hlength])
        (hnext y hx)
      refine ⟨after, ?_, htouch', fun zs hzs => ?_⟩
      · rw [ok_bind]
        cases hmap : rest.mapM f with
        | error failure =>
          rw [hmap] at hrest
          exact hrest
        | ok zs =>
          rw [hmap] at hrest
          exact hrest
      · simp only [ok_bind, bind_eq_ok_iff] at hzs
        obtain ⟨tail, htail, hzs⟩ := hzs
        cases hzs
        have hinv' := hafter tail htail
        rw [List.append_assoc] at hinv'
        exact hinv'

end Stateful

namespace Heap

/-- Nothing but the elements of one buffer has changed. Even that one keeps its
    type and length. -/
structure Touches (heap : Heap) (ref : HostRef) (after : Heap) : Prop where
  size_eq : after.buffers.size = heap.buffers.size
  others : ∀ other, other ≠ ref → after.get other = heap.get other
  dtype_eq : (after.get ref).dtype = (heap.get ref).dtype
  length_eq : (after.get ref).length = (heap.get ref).length

/-- The first elements of a buffer have been overwritten. The others are what
    they were. -/
structure Overwrites (heap : Heap) (ref : HostRef) (xs : List Numeric) (after : Heap) : Prop extends
    heap.Touches ref after where
  get?_eq : ∀ index, (after.get ref).get? index = if index < xs.length then xs[index]? else (heap.get ref).get? index

variable {heap after : Heap} {ref : HostRef} {xs : List Numeric} {x : Numeric}

/-- Two actions that touch one buffer touch no other together. The buffer keeps
    its type and length. -/
theorem Touches.trans {final : Heap} (h : heap.Touches ref after) (h' : after.Touches ref final) :
    heap.Touches ref final :=
  ⟨h'.size_eq.trans h.size_eq, fun other hne => (h'.others other hne).trans (h.others other hne),
    h'.dtype_eq.trans h.dtype_eq, h'.length_eq.trans h.length_eq⟩

/-- What is overwritten by as many elements leaves no trace. A copy and an
    update of it leave what the update has written. -/
theorem Overwrites.trans {final : Heap} {ys : List Numeric} (h : heap.Overwrites ref xs after)
    (h' : after.Overwrites ref ys final) (hlength : xs.length = ys.length) : heap.Overwrites ref ys final := by
  refine ⟨h.toTouches.trans h'.toTouches, fun index => ?_⟩
  rw [h'.get?_eq]
  split
  · rfl
  · next hge => rw [h.get?_eq, if_neg (hlength ▸ hge)]

theorem Overwrites.refl (heap : Heap) (ref : HostRef) : heap.Overwrites ref [] heap :=
  ⟨⟨rfl, fun _ _ => rfl, rfl, rfl⟩, fun _ => rfl⟩

/-- A buffer that has been overwritten from end to end holds what was written.
    Nothing is left of its first contents. -/
theorem Overwrites.toList_eq (h : heap.Overwrites ref xs after) (hlength : (heap.get ref).length = xs.length) :
    (after.get ref).elements.toList = xs := by
  refine List.ext_getElem? fun index => ?_
  have hget := h.get?_eq index
  by_cases hlt : index < xs.length
  · rw [if_pos hlt] at hget
    simpa [HostBuffer.get?] using hget
  · have hnone : (heap.get ref).get? index = none := Array.getElem?_eq_none (by
      rw [HostBuffer.length] at hlength
      omega)
    rw [if_neg hlt, hnone] at hget
    simpa [HostBuffer.get?, List.getElem?_eq_none (Nat.le_of_not_lt hlt)] using hget

/-- The next element of the buffer can be overwritten as well. This is the step
    by which packed storage is filled. -/
theorem Overwrites.exists_set (h : heap.Overwrites ref xs after) (hlt : ref.index < heap.buffers.size)
    (hdtype : x.dtype = (heap.get ref).dtype) (hlength : xs.length < (heap.get ref).length) :
    ∃ buffer, (after.get ref).set xs.length x = .ok buffer ∧ heap.Overwrites ref (xs ++ [x]) (after.put ref buffer) := by
  obtain ⟨buffer, hset⟩ := HostBuffer.exists_set (hdtype.trans h.dtype_eq.symm) (h.length_eq ▸ hlength)
  have hget : (after.put ref buffer).get ref = buffer := get_put_self after buffer (h.size_eq ▸ hlt)
  refine ⟨buffer, hset, ⟨⟨?_, ?_, ?_, ?_⟩, ?_⟩⟩
  · rw [size_put, h.size_eq]
  · intro other hne
    rw [get_put_of_ne after buffer hne, h.others other hne]
  · rw [hget, HostBuffer.dtype_eq_of_set hset, h.dtype_eq]
  · rw [hget, HostBuffer.length_eq_of_set hset, h.length_eq]
  · intro index
    rw [hget, HostBuffer.get?_of_set hset, h.get?_eq, List.length_append, List.length_singleton]
    by_cases heq : index = xs.length
    · subst heq
      simp
    · by_cases hlt : index < xs.length
      · rw [if_neg heq, if_pos hlt, if_pos (by omega), List.getElem?_append_left hlt]
      · rw [if_neg heq, if_neg hlt, if_neg (by omega)]

end Heap

namespace Layout

/-- The layout of a packed copy, where one can be stored: its strides are words,
    and there is room for its elements. -/
def packedFor (layout : Layout) (dtype : DType) : Except Fault Layout := do
  let packed ← layout.contiguous
  dtype.reserve (← packed.memorySize)
  return packed

variable {layout packed : Layout} {dtype : DType}

/-- A packed copy has one element for each coordinate, and room is needed for
    these. -/
theorem packedFor_eq_ok_iff : layout.packedFor dtype = .ok packed ↔
    layout.contiguous = .ok packed ∧ dtype.reserve layout.extents.prod = .ok () := by
  unfold packedFor
  cases hpacked : layout.contiguous with
  | error fault => exact ⟨nofun, fun h => nomatch h.1⟩
  | ok found =>
    obtain ⟨size, hpacks⟩ := packed_eq_ok hpacked
    rw [ok_bind, hpacks.memorySize_eq, size_eq_prod hpacks.increments_eq, ok_bind]
    rcases dtype.reserve_cases layout.extents.prod with hroom | hroom
    · simp [hroom]
    · simp [hroom]

theorem contiguous_of_packedFor (h : layout.packedFor dtype = .ok packed) : layout.contiguous = .ok packed :=
  (packedFor_eq_ok_iff.mp h).1

theorem extents_eq_of_packedFor (h : layout.packedFor dtype = .ok packed) : packed.extents = layout.extents :=
  extents_eq_of_packed (contiguous_of_packedFor h)

/-- There is a packed layout with storage where the size has room. It is the
    layout that the extents pack into. -/
theorem packedFor_of_packs {size : Nat} (hpacked : layout.contiguous = .ok packed)
    (hpacks : packed.Packs layout.extents size) :
    layout.packedFor dtype = (dtype.reserve size).map fun _ => packed := by
  rw [packedFor, hpacked, ok_bind, hpacks.memorySize_eq, ok_bind]
  cases dtype.reserve size <;> rfl

end Layout

namespace Value

/-- Packed storage from the start of a buffer on. Its elements lie in the order
    they are visited in. -/
structure Packed (heap : Heap) (value : Value) (ref : HostRef) (size : Nat) : Prop where
  data_eq : value.data = .host ref 0
  packs : value.layout.Packs value.layout.extents size
  lt_size : ref.index < heap.buffers.size
  dtype_eq : (heap.get ref).dtype = value.dtype
  le_length : size ≤ (heap.get ref).length

namespace Packed

variable {σ : Type} {heap after : Heap} {world : World σ} {value : Value} {ref : HostRef} {size : Nat}

/-- A packed value of a buffer is sound: it has its type and as many increments
    as extents. -/
theorem sound (h : value.Packed heap ref size) : value.Sound heap := by
  refine ⟨?_, h.packs.formed⟩
  rw [h.data_eq, make_host_eq_ok]
  obtain ⟨dtype, layout, data⟩ := value
  obtain rfl : data = .host ref 0 := h.data_eq
  refine ⟨h.dtype_eq, ⟨size, h.packs.memorySize_eq, ?_, ?_⟩, rfl⟩
  · rw [Nat.zero_add]
    exact h.packs.lt_bound
  · rw [Nat.zero_add]
    exact h.le_length

theorem of_touches (h : value.Packed heap ref size) (htouches : heap.Touches ref after) : value.Packed after ref size :=
  ⟨h.data_eq, h.packs, htouches.size_eq ▸ h.lt_size, htouches.dtype_eq.trans h.dtype_eq, htouches.length_eq ▸ h.le_length⟩

/-- If an element can be found, its coordinates are read as themselves. They are
    inside a packed value, and so machine words. -/
theorem indices_of_elementAt (h : value.Packed heap ref size) {other item : Value} {coordinates : List Nat}
    (hin : Layout.InBounds coordinates value.layout.extents) (hitem : other.elementAt after coordinates = .ok item) :
    Scalar.indices coordinates = .ok coordinates := by
  obtain ⟨found, hfound⟩ := exists_indices_of_elementAt hitem
  rwa [Scalar.eq_of_indices (h.packs.lt_bound_of_inBounds hin) hfound] at hfound

/-- The element of packed storage at given coordinates lies at their place.
    Packed storage begins at the start of its buffer. -/
theorem elementAt_eq (h : value.Packed heap ref size) {coordinates : List Nat}
    (hin : Layout.InBounds coordinates value.layout.extents) (hindices : Scalar.indices coordinates = .ok coordinates) :
    value.elementAt heap coordinates = .ok ⟨value.dtype, .scalar, .host ref (value.layout.place coordinates)⟩ := by
  rw [elementAt_host h.sound h.data_eq hindices hin, Nat.zero_add]

/-- What is overwritten is found at the coordinates it was written for. Packed
    storage numbers its coordinates in order. -/
theorem peek_of_overwrites (h : value.Packed heap ref size) {xs : List Numeric} (hover : heap.Overwrites ref xs after)
    {index : Nat} (hlt : index < (Layout.rowMajor value.layout.extents).length) (hin : index < xs.length)
    (hindices : Scalar.indices (Layout.rowMajor value.layout.extents)[index] =
      .ok (Layout.rowMajor value.layout.extents)[index]) :
    value.peek after (Layout.rowMajor value.layout.extents)[index] = .ok xs[index] := by
  refine peek_host (h.of_touches hover.toTouches).sound h.data_eq hindices
    (Layout.mem_rowMajor.mp (List.getElem_mem hlt)) ?_
  rw [h.packs.place_getElem hlt, Nat.zero_add, hover.get?_eq, if_pos hin, List.getElem?_eq_getElem hin]

/-- What packed storage was overwritten with is what it holds. As many elements
    are needed as there are coordinates. -/
theorem mapM_peek (h : value.Packed heap ref size) {xs : List Numeric} (hover : heap.Overwrites ref xs after)
    (hlength : xs.length = (Layout.rowMajor value.layout.extents).length)
    (hindices : ∀ coordinates ∈ Layout.rowMajor value.layout.extents, Scalar.indices coordinates = .ok coordinates) :
    (Layout.rowMajor value.layout.extents).mapM (value.peek after) = .ok xs := by
  refine mapM_eq_ok_iff.mpr (List.forall₂_iff_get.mpr ⟨hlength.symm, fun index hlt hin => ?_⟩)
  exact h.peek_of_overwrites hover hlt hin (hindices _ (List.getElem_mem hlt))

/-- A loop over the coordinates of packed storage that writes an element at each
    fills the storage, from the first element on, as far as it gets. -/
theorem runFrom_forM (h : value.Packed world.heap ref size) {body : List Nat → Action σ Unit}
    {f : List Nat → Outcome Numeric}
    (hdtype : ∀ coordinates ∈ Layout.rowMajor value.layout.extents, ∀ x, f coordinates = .ok x → x.dtype = value.dtype)
    (hbody : ∀ (index : Nat) (hlt : index < (Layout.rowMajor value.layout.extents).length) (xs : List Numeric) (heap : Heap),
      xs.length = index → world.heap.Overwrites ref xs heap →
        match f (Layout.rowMajor value.layout.extents)[index] with
        | .error failure => (body (Layout.rowMajor value.layout.extents)[index]).runFrom { world with heap } =
            (.error failure, { world with heap })
        | .ok x => ∀ buffer, (heap.get ref).set index x = .ok buffer →
            (body (Layout.rowMajor value.layout.extents)[index]).runFrom { world with heap } =
              (.ok (), { world with heap := heap.put ref buffer })) :
    ∃ heap, ((Layout.rowMajor value.layout.extents).forM body).runFrom world =
        (((Layout.rowMajor value.layout.extents).mapM f).map fun _ => (), { world with heap }) ∧
      world.heap.Touches ref heap ∧
      ∀ xs, (Layout.rowMajor value.layout.extents).mapM f = .ok xs → world.heap.Overwrites ref xs heap := by
  have hstep : ∀ done coordinates rest xs after, Layout.rowMajor value.layout.extents = done ++ coordinates :: rest →
      xs.length = done.length → (∃ heap, after = { world with heap } ∧ world.heap.Overwrites ref xs heap) →
      ∃ next, (body coordinates).runFrom after = ((f coordinates).map fun _ => (), next) ∧
        (∃ heap, next = { world with heap } ∧ world.heap.Touches ref heap) ∧
        ∀ x, f coordinates = .ok x → ∃ heap, next = { world with heap } ∧ world.heap.Overwrites ref (xs ++ [x]) heap := by
    rintro done coordinates rest xs _ hsplit hlength ⟨heap, rfl, hover⟩
    have hlt : done.length < (Layout.rowMajor value.layout.extents).length := by simp [hsplit]
    have hget : (Layout.rowMajor value.layout.extents)[done.length] = coordinates := by simp [hsplit]
    have hpass := hbody done.length hlt xs heap hlength hover
    rw [hget] at hpass
    cases hf : f coordinates with
    | error failure =>
      rw [hf] at hpass
      exact ⟨_, hpass, ⟨heap, rfl, hover.toTouches⟩, fun _ hx => nomatch hx⟩
    | ok x =>
      rw [hf] at hpass
      have hmem : coordinates ∈ Layout.rowMajor value.layout.extents := hget ▸ List.getElem_mem hlt
      have hx : x.dtype = (world.heap.get ref).dtype := (hdtype coordinates hmem x hf).trans h.dtype_eq.symm
      have hroom : xs.length < (world.heap.get ref).length := by
        have hle := h.le_length
        rw [h.packs.length_rowMajor] at hlt
        omega
      obtain ⟨buffer, hset, hnext⟩ := hover.exists_set h.lt_size hx hroom
      refine ⟨_, hpass buffer (hlength ▸ hset), ⟨_, rfl, hnext.toTouches⟩, ?_⟩
      rintro _ ⟨⟩
      exact ⟨_, rfl, hnext⟩
  obtain ⟨_, hrun, ⟨heap, rfl, htouches⟩, hafter⟩ := Stateful.runFrom_forM_of_outcomes _ body f
    (fun xs after => ∃ heap, after = { world with heap } ∧ world.heap.Overwrites ref xs heap)
    (fun after => ∃ heap, after = { world with heap } ∧ world.heap.Touches ref heap)
    (fun _ _ ⟨heap, hheap, hover⟩ => ⟨heap, hheap, hover.toTouches⟩) hstep ⟨world.heap, rfl, .refl _ _⟩
  refine ⟨heap, hrun, htouches, fun xs hxs => ?_⟩
  obtain ⟨_, heq, hover⟩ := hafter xs hxs
  cases heq
  exact hover

end Packed

end Value

namespace Context

variable {σ : Type} (world : World σ)

/-- On the host an element is found without a change. It is the one at the
    coordinates that are read. -/
theorem runFrom_element (value : Value) (coordinates : List Nat) :
    (compute.element value (coordinates.map Scalar.ofIndex)).runFrom world =
      (value.elementAt world.heap coordinates, world) := by
  rw [element, Action.runFrom_onHeap, Direct.runFrom_element_ofIndex]

/-- To load a value on the host gives its number as an immediate. Nothing is
    changed by it. -/
theorem runFrom_load (value : Value) :
    (compute.load value).runFrom world = ((value.held world.heap).map Value.constant, world) := by
  rw [load, Action.runFrom_onHeap, Direct.load, Stateful.runFrom_bind, Direct.runFrom_read]
  cases value.held world.heap <;> rfl

/-- An operation on immediates in the direct context reads both of them and
    changes nothing. Errors come in the order left, right, operation. -/
theorem runFrom_binary (op : BinaryOp) (a b : Value) :
    (compute.binary op a b).runFrom world =
      ((do
        let x ← a.held world.heap
        let y ← b.held world.heap
        let z ← x.binary op y
        return Value.constant z), world) := by
  rw [binary, Action.runFrom_onHeap, Direct.binary, Stateful.runFrom_bind, Direct.runFrom_read]
  cases a.held world.heap with
  | error failure => rfl
  | ok x =>
    dsimp only
    rw [Stateful.runFrom_bind, Direct.runFrom_read]
    cases b.held world.heap with
    | error failure => rfl
    | ok y =>
      dsimp only [ok_bind]
      cases x.binary op y <;> rfl

/-- An immediate of the right type is stored at an offset inside the buffer. -/
theorem runFrom_store {world : World σ} {dtype : DType} {ref : HostRef} {offset : Nat} {x : Numeric} {buffer : HostBuffer}
    (hdtype : x.dtype = dtype) (hset : (world.heap.get ref).set offset x = .ok buffer) :
    (compute.store ⟨dtype, .scalar, .host ref offset⟩ (.constant x)).runFrom world =
      (.ok (), { world with heap := world.heap.put ref buffer }) := by
  have hrun : (Direct.store ⟨dtype, .scalar, .host ref offset⟩ (.constant x)).runFrom world.heap =
      (.ok (), world.heap.put ref buffer) :=
    Direct.runFrom_store rfl rfl hdtype (Value.reads_constant rfl rfl) hset
  rw [store, Action.runFrom_onHeap, hrun]

/-- A loop over a layout goes through its coordinates in row-major order. Each
    pass is given immediates. -/
theorem runFrom_forEach (layout : Layout) (body : List Scalar → Action σ Unit) :
    (compute.forEach layout body).runFrom world =
      ((Layout.rowMajor layout.extents).forM fun coordinates => body (coordinates.map Scalar.ofIndex)).runFrom world := by
  rw [forEach, Layout.forCoordinates_eq]

end Context

namespace Elementwise

variable {σ : Type} {world : World σ} {destination source : Value} {ref : HostRef} {size : Nat}

/-- Packed storage takes the elements of a value of its type and extents, up to
    the first that cannot be read. -/
theorem runFrom_copyInto (hcontext : world.contexts.head? = some .compute) (hpacked : destination.Packed world.heap ref size)
    (hsound : source.Sound world.heap) (hdtype : source.dtype = destination.dtype)
    (hextents : source.layout.extents = destination.layout.extents)
    (hapart : ∀ other offset, source.data = .host other offset → other ≠ ref) :
    ∃ heap, (copyInto destination source).runFrom world =
        (((Layout.rowMajor destination.layout.extents).mapM (source.peek world.heap)).map fun _ => (), { world with heap }) ∧
      world.heap.Touches ref heap ∧
      ∀ xs, (Layout.rowMajor destination.layout.extents).mapM (source.peek world.heap) = .ok xs →
        world.heap.Overwrites ref xs heap := by
  have hensure : source.ensureDType destination.dtype = .ok () := Value.ensureDType_eq_ok.mpr hdtype
  have hrun : (copyInto destination source).runFrom world = ((Layout.rowMajor destination.layout.extents).forM
      fun coordinates => copyAt .compute destination source (coordinates.map Scalar.ofIndex)).runFrom world := by
    simp only [copyInto, Stateful.runFrom_bind, Stateful.runFrom_liftM, hensure, liftM_error_ok, hextents, ne_eq,
      not_true, if_false, Action.runFrom_activeContext hcontext, Context.runFrom_forEach]
  rw [hrun]
  refine hpacked.runFrom_forM (fun _ _ x hx => (Value.dtype_of_peek hsound hx).trans hdtype) ?_
  intro index hlt xs heap hlength hover
  have halike : source.Alike world.heap heap :=
    .of_get_eq fun other offset hdata => hover.others other (hapart other offset hdata)
  have hin := Layout.mem_rowMajor.mp (List.getElem_mem hlt)
  generalize hcoordinates : (Layout.rowMajor destination.layout.extents)[index] = coordinates at hin ⊢
  rw [← Value.peek_congr hsound halike coordinates]
  simp only [copyAt, Stateful.runFrom_bind, Context.runFrom_element, Value.peek]
  cases hitem : source.elementAt heap coordinates with
  | error failure => exact rfl
  | ok item =>
    have hindices := hpacked.indices_of_elementAt hin hitem
    have htarget := (hpacked.of_touches hover.toTouches).elementAt_eq hin hindices
    have hplace : destination.layout.place coordinates = index := hcoordinates ▸ hpacked.packs.place_getElem hlt
    simp only [htarget, hplace, Context.runFrom_load, ok_bind]
    cases hx : item.held heap with
    | error failure => exact rfl
    | ok x =>
      have hdtype' : x.dtype = destination.dtype := by
        have hpeek : source.peek world.heap coordinates = .ok x := by
          rw [← Value.peek_congr hsound halike, Value.peek, hitem, ok_bind, hx]
        rw [← hdtype, Value.dtype_of_peek hsound hpeek]
      intro buffer hset
      exact Context.runFrom_store hdtype' hset

/-- The element of a right operand is found without a change, and is the operand
    itself if that has rank 0. -/
theorem runFrom_sourceElement (world : World σ) (source : Value) (coordinates : List Nat) :
    (sourceElement .compute source (coordinates.map Scalar.ofIndex)).runFrom world =
      (source.sourceAt world.heap coordinates, world) := by
  unfold sourceElement Value.sourceAt
  split
  · rfl
  · exact Context.runFrom_element world source coordinates

/-- What a law for elements makes of those that two values hold at given
    coordinates. -/
def combineWith (heap : Heap) (law : Numeric → Numeric → Except ValueError Numeric) (lhs rhs : Value)
    (coordinates : List Nat) : Outcome Numeric := do
  let x ← lhs.peek heap coordinates
  let y ← rhs.peekSource heap coordinates
  law x y

/-- The combination of what two values hold at given coordinates. It fails where
    the operation does. -/
def combineAt (heap : Heap) (op : BinaryOp) (lhs rhs : Value) (coordinates : List Nat) : Outcome Numeric := do
  let x ← lhs.peek heap coordinates
  let y ← rhs.peekSource heap coordinates
  x.binary op y

/-- A combination needs the element on the left. -/
theorem exists_mapM_peek {heap : Heap} {law : Numeric → Numeric → Except ValueError Numeric} {lhs rhs : Value}
    {visited : List (List Nat)} {zs : List Numeric} (h : visited.mapM (combineWith heap law lhs rhs) = .ok zs) :
    ∃ xs, visited.mapM (lhs.peek heap) = .ok xs := by
  apply exists_mapM
  intro coordinates hmem
  obtain ⟨z, hz⟩ := exists_of_mapM h hmem
  obtain ⟨x, hx, -⟩ := bind_eq_ok_iff.mp hz
  exact ⟨x, hx⟩

/-- Carried out at once, a step replaces an element by what a law makes of it
    and that of the source. -/
structure Applies (combine : Context → Value → Value → Action σ Value)
    (law : Numeric → Numeric → Except ValueError Numeric) : Prop where
  run : ∀ (world : World σ) (target other : Value) (x : Numeric), target.held world.heap = .ok x →
    (combine .compute target other).runFrom world =
      ((do
        let y ← other.held world.heap
        let z ← law x y
        return Value.constant z), world)
  dtype_eq : ∀ x y z, law x y = .ok z → z.dtype = x.dtype

/-- The operations of scalars apply to what two elements hold. This is the way
    of combining that an update uses. -/
theorem applies_binary (op : BinaryOp) :
    Applies (σ := σ) (fun context target other => context.binary op target other) fun x y => x.binary op y where
  run world target other x hx := by
    rw [Context.runFrom_binary, hx, ok_bind]
  dtype_eq _ _ _ hz := (Numeric.dtype_of_binary hz).2

/-- With the operands swapped, an update still applies an operation to what it
    finds in the two places. -/
theorem applies_reversed (op : BinaryOp) :
    Applies (σ := σ) (fun context target other => context.binary op other target) fun x y => y.binary op x where
  run world target other x hx := by
    rw [Context.runFrom_binary, hx]
    cases other.held world.heap <;> rfl
  dtype_eq _ _ _ hz := (Numeric.dtype_of_binary hz).2.trans (Numeric.dtype_of_binary hz).1.symm

section Update

variable {combine : Context → Value → Value → Action σ Value} {law : Numeric → Numeric → Except ValueError Numeric}

/-- Operands of one type go together if the source has rank 0 or the extents of
    the destination. -/
theorem checkOperands_eq_ok (hdtype : source.dtype = destination.dtype)
    (hextents : source.layout.rank = 0 ∨ source.layout.extents = destination.layout.extents) :
    checkOperands destination source = .ok () := by
  have hensure : source.ensureDType destination.dtype = .ok () := Value.ensureDType_eq_ok.mpr hdtype
  simp only [checkOperands, hensure, liftM_error_ok, ok_bind]
  rw [if_neg]
  · rfl
  · rintro ⟨hrank, hne⟩
    exact hne (hextents.resolve_left hrank)

/-- Packed storage takes what a law makes of its elements and those of a
    source. -/
theorem runFrom_update (happlies : Applies combine law) (hcontext : world.contexts.head? = some .compute)
    (hpacked : destination.Packed world.heap ref size)
    (hindices : ∀ coordinates ∈ Layout.rowMajor destination.layout.extents, Scalar.indices coordinates = .ok coordinates)
    (hsound : source.Sound world.heap) (hdtype : source.dtype = destination.dtype)
    (hextents : source.layout.rank = 0 ∨ source.layout.extents = destination.layout.extents)
    (hapart : ∀ other offset, source.data = .host other offset → other ≠ ref) :
    ∃ heap, (update combine destination source).runFrom world =
        (((Layout.rowMajor destination.layout.extents).mapM (combineWith world.heap law destination source)).map fun _ => (),
          { world with heap }) ∧
      world.heap.Touches ref heap ∧
      ∀ xs, (Layout.rowMajor destination.layout.extents).mapM (combineWith world.heap law destination source) = .ok xs →
        world.heap.Overwrites ref xs heap := by
  have hchecked := checkOperands_eq_ok hdtype hextents
  have haddressable : destination.isAddressable = true := by
    rw [Value.isAddressable, hpacked.data_eq]
  have hrun : (update combine destination source).runFrom world = ((Layout.rowMajor destination.layout.extents).forM
      fun coordinates => updateAt .compute (combine .compute) destination source
        (coordinates.map Scalar.ofIndex)).runFrom world := by
    simp only [update, Stateful.runFrom_bind, Stateful.runFrom_liftM, hchecked, liftM_self, haddressable,
      if_true, Action.runFrom_activeContext hcontext, Context.runFrom_forEach]
  rw [hrun]
  refine hpacked.runFrom_forM ?_ ?_
  · intro coordinates _ z hz
    simp only [combineWith, bind_eq_ok_iff, liftM_error_eq_ok_iff] at hz
    obtain ⟨x, hx, y, -, hz⟩ := hz
    rw [happlies.dtype_eq x y z hz, Value.dtype_of_peek hpacked.sound hx]
  · intro index hlt xs heap hlength hover
    have halike : source.Alike world.heap heap :=
      .of_get_eq fun other offset hdata => hover.others other (hapart other offset hdata)
    have hin := Layout.mem_rowMajor.mp (List.getElem_mem hlt)
    have hplace := hpacked.packs.place_getElem hlt
    have hself := hindices _ (List.getElem_mem hlt)
    generalize (Layout.rowMajor destination.layout.extents)[index] = coordinates at hin hplace hself ⊢
    have htarget := (hpacked.of_touches hover.toTouches).elementAt_eq hin hself
    rw [hplace] at htarget
    have hroom : index < (heap.get ref).length := by
      have hle := hpacked.le_length
      rw [hpacked.packs.length_rowMajor] at hlt
      rw [hover.length_eq]
      omega
    obtain ⟨x, hx, -⟩ := HostBuffer.exists_get? hroom
    have hbefore : destination.peek world.heap coordinates = .ok x := by
      refine Value.peek_host hpacked.sound hpacked.data_eq hself hin ?_
      rw [hplace, Nat.zero_add, ← hx, hover.get?_eq, if_neg (Nat.not_lt_of_le (Nat.le_of_eq hlength))]
    have hheld : (⟨destination.dtype, .scalar, .host ref index⟩ : Value).held heap = .ok x := by
      rw [Value.held_host, hx]
      rfl
    rw [combineWith, hbefore, ok_bind, ← Value.peekSource_congr hsound halike coordinates, Value.peekSource]
    simp only [updateAt, Stateful.runFrom_bind, Context.runFrom_element, htarget, runFrom_sourceElement]
    cases hother : source.sourceAt heap coordinates with
    | error failure => exact rfl
    | ok other =>
      simp only [ok_bind, happlies.run { world with heap } _ other x hheld]
      cases other.held heap with
      | error failure => exact rfl
      | ok y =>
        simp only [ok_bind]
        cases hz : law x y with
        | error cause => exact rfl
        | ok z =>
          have hdtype' : z.dtype = destination.dtype := by
            rw [happlies.dtype_eq x y z hz, Value.dtype_of_peek hpacked.sound hbefore]
          intro buffer hset
          exact Context.runFrom_store hdtype' hset

/-- A copy that is then combined with a second value holds the combinations of
    both. -/
theorem runFrom_copyInto_update {lhs rhs : Value} (happlies : Applies combine law) (hcontext : world.contexts.head? = some .compute)
    (hpacked : destination.Packed world.heap ref size) (hlhs : lhs.Sound world.heap) (hrhs : rhs.Sound world.heap)
    (hdtype : lhs.dtype = destination.dtype) (hdtype' : rhs.dtype = destination.dtype)
    (hextents : lhs.layout.extents = destination.layout.extents)
    (hextents' : rhs.layout.rank = 0 ∨ rhs.layout.extents = destination.layout.extents)
    (hapart : ∀ other offset, lhs.data = .host other offset → other ≠ ref)
    (hapart' : ∀ other offset, rhs.data = .host other offset → other ≠ ref) :
    ∃ heap, (copyInto destination lhs >>= fun _ => update combine destination rhs).runFrom world =
        ((do
          let _ ← (Layout.rowMajor destination.layout.extents).mapM (lhs.peek world.heap)
          let _ ← (Layout.rowMajor destination.layout.extents).mapM (combineWith world.heap law lhs rhs)
          return ()), { world with heap }) ∧
      world.heap.Touches ref heap ∧
      ∀ xs, (Layout.rowMajor destination.layout.extents).mapM (combineWith world.heap law lhs rhs) = .ok xs →
        world.heap.Overwrites ref xs heap := by
  obtain ⟨heap, hcopy, htouches, hover⟩ := runFrom_copyInto hcontext hpacked hlhs hdtype hextents hapart
  rw [Stateful.runFrom_bind, hcopy]
  cases hxs : (Layout.rowMajor destination.layout.extents).mapM (lhs.peek world.heap) with
  | error failure =>
    refine ⟨heap, rfl, htouches, fun zs hzs => ?_⟩
    obtain ⟨xs, hok⟩ := exists_mapM_peek hzs
    cases hxs.symm.trans hok
  | ok xs =>
    have hover := hover xs hxs
    have helements := mapM_eq_ok_iff.mp hxs
    have hpacked' := hpacked.of_touches htouches
    have halike : rhs.Alike world.heap heap :=
      .of_get_eq fun other offset hdata => htouches.others other (hapart' other offset hdata)
    have hpeek : ∀ coordinates ∈ Layout.rowMajor destination.layout.extents,
        Scalar.indices coordinates = .ok coordinates ∧ destination.peek heap coordinates = lhs.peek world.heap coordinates := by
      intro coordinates hmem
      obtain ⟨index, hlt, rfl⟩ := List.getElem_of_mem hmem
      have hx := helements.get hlt (helements.length_eq ▸ hlt)
      simp only [List.get_eq_getElem] at hx
      have hin := Layout.mem_rowMajor.mp hmem
      obtain ⟨item, hitem, -⟩ := bind_eq_ok_iff.mp hx
      have hindices := hpacked.indices_of_elementAt hin hitem
      exact ⟨hindices, (hpacked.peek_of_overwrites hover hlt _ hindices).trans hx.symm⟩
    have hcombine : ∀ coordinates ∈ Layout.rowMajor destination.layout.extents,
        combineWith heap law destination rhs coordinates = combineWith world.heap law lhs rhs coordinates := by
      intro coordinates hmem
      rw [combineWith, combineWith, (hpeek coordinates hmem).2, Value.peekSource_congr hrhs halike]
    have hcontext' : ({ world with heap } : World σ).contexts.head? = some .compute := hcontext
    obtain ⟨final, hassign, htouches', hover'⟩ := runFrom_update happlies hcontext' hpacked'
      (fun coordinates hmem => (hpeek coordinates hmem).1) (hrhs.of_alike halike) hdtype' hextents' hapart'
    rw [mapM_congr hcombine] at hassign hover'
    refine ⟨final, ?_, htouches.trans htouches', fun zs hzs => hover.trans (hover' zs hzs) ?_⟩
    · dsimp only [Except.map]
      rw [hassign]
      cases (Layout.rowMajor destination.layout.extents).mapM (combineWith world.heap law lhs rhs) <;> rfl
    · rw [← helements.length_eq, (mapM_eq_ok_iff.mp hzs).length_eq]

end Update

/-- A copy followed by an update leaves the combination of the two operands. The
    storage that is filled is apart from both. -/
theorem runFrom_copyInto_assignBinary {lhs rhs : Value} (op : BinaryOp) (hcontext : world.contexts.head? = some .compute)
    (hpacked : destination.Packed world.heap ref size) (hlhs : lhs.Sound world.heap) (hrhs : rhs.Sound world.heap)
    (hdtype : lhs.dtype = destination.dtype) (hdtype' : rhs.dtype = destination.dtype)
    (hextents : lhs.layout.extents = destination.layout.extents)
    (hextents' : rhs.layout.rank = 0 ∨ rhs.layout.extents = destination.layout.extents)
    (hapart : ∀ other offset, lhs.data = .host other offset → other ≠ ref)
    (hapart' : ∀ other offset, rhs.data = .host other offset → other ≠ ref) :
    ∃ heap, (copyInto destination lhs >>= fun _ => assignBinary op destination rhs).runFrom world =
        ((do
          let _ ← (Layout.rowMajor destination.layout.extents).mapM (lhs.peek world.heap)
          let _ ← (Layout.rowMajor destination.layout.extents).mapM (combineAt world.heap op lhs rhs)
          return ()), { world with heap }) ∧
      world.heap.Touches ref heap ∧
      ∀ xs, (Layout.rowMajor destination.layout.extents).mapM (combineAt world.heap op lhs rhs) = .ok xs →
        world.heap.Overwrites ref xs heap :=
  runFrom_copyInto_update (applies_binary op) hcontext hpacked hlhs hrhs hdtype hdtype' hextents hextents' hapart hapart'

end Elementwise

end StagedArrays
