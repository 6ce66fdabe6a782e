import StagedArrays.Proofs.Algebra.Filling
import StagedArrays.Proofs.Storage.Fits

namespace StagedArrays

namespace Layout

/-- No two coordinates lead to the same place. Storage with such a layout can be
    filled without overwriting what was filled before. -/
def Injective (layout : Layout) : Prop :=
  (rowMajor layout.extents).Pairwise fun coordinates other => layout.place coordinates ≠ layout.place other

instance (layout : Layout) : Decidable layout.Injective := inferInstanceAs (Decidable (List.Pairwise _ _))

/-- In a packed layout no two coordinates in bounds lead to the same place. They
    are counted in row-major order. -/
theorem Packs.injective {layout : Layout} {extents : List Nat} {size : Nat} (h : layout.Packs extents size) :
    layout.Injective := by
  have hrange := List.nodup_range (n := size)
  rw [← h.map_place, ← h.extents_eq] at hrange
  exact List.pairwise_map.mp hrange

/-- Where there are few enough coordinates, they are read as themselves. A loop
    hands them to its body as immediates with a sign. -/
theorem indices_of_signed_prod {extents coordinates : List Nat} (hcount : Word.Signed extents.prod)
    (hmem : coordinates ∈ rowMajor extents) : Scalar.indices coordinates = .ok coordinates := by
  refine Scalar.indices_of_signed fun index hindex => hcount.mono ?_
  have hin := mem_rowMajor.mp hmem
  obtain ⟨extent, hextent, hlt⟩ := exists_lt_of_inBounds hin hindex
  exact Nat.le_trans (Nat.le_of_lt hlt) (le_prod_of_mem hin.zero_notMem hextent)

end Layout

namespace Heap

variable {heap after : Heap} {ref : HostRef}

theorem Touches.refl (heap : Heap) (ref : HostRef) : heap.Touches ref heap := ⟨rfl, fun _ _ => rfl, rfl, rfl⟩

/-- A change within one buffer takes no buffer away, and changes no type or
    length. -/
theorem Touches.advances (h : heap.Touches ref after) : heap.Advances after := by
  intro other hlt
  rw [h.size_eq]
  by_cases heq : other = ref
  · rw [heq]
    exact ⟨heq ▸ hlt, h.dtype_eq, h.length_eq⟩
  · rw [h.others other heq]
    exact ⟨hlt, rfl, rfl⟩

/-- Putting back a buffer with one element written is a change within that
    buffer. -/
theorem touches_put (hlt : ref.index < heap.buffers.size) {index : Nat} {x : Numeric} {buffer : HostBuffer}
    (hset : (heap.get ref).set index x = .ok buffer) : heap.Touches ref (heap.put ref buffer) := by
  have hget : (heap.put ref buffer).get ref = buffer := get_put_self heap buffer hlt
  refine ⟨size_put heap ref buffer, fun other hne => get_put_of_ne heap buffer hne, ?_, ?_⟩
  · rw [hget, HostBuffer.dtype_eq_of_set hset]
  · rw [hget, HostBuffer.length_eq_of_set hset]

end Heap

namespace Value

variable {heap : Heap} {value : Value} {ref : HostRef} {offset : Nat} {coordinates : List Nat}

/-- What lies at the coordinates of a host value. There is an element, and it is
    of the type of the value. -/
theorem Sound.exists_peek (h : value.Sound heap) (hdata : value.data = .host ref offset)
    (hindices : Scalar.indices coordinates = .ok coordinates) (hin : Layout.InBounds coordinates value.layout.extents) :
    ∃ x, value.peek heap coordinates = .ok x ∧ (heap.get ref).get? (offset + value.layout.place coordinates) = some x := by
  obtain ⟨-, size, hsize, -, hle⟩ := h.host hdata
  have hlt := Layout.place_lt_memorySize hsize hin
  obtain ⟨x, hx, -⟩ := HostBuffer.exists_get? (Nat.lt_of_lt_of_le (Nat.add_lt_add_left hlt offset) hle)
  exact ⟨x, peek_host h hdata hindices hin hx, hx⟩

end Value

namespace Elementwise

variable {σ : Type} {world : World σ} {destination source : Value} {ref origin : HostRef} {offset start : Nat}

/-- One element is copied to its place, and nothing besides it has changed. -/
theorem exists_runFrom_copyAt (hdestination : destination.Fits world.heap) (hdata : destination.data = .host ref offset)
    (hsource : source.Fits world.heap) (hfrom : source.data = .host origin start) (hdtype : source.dtype = destination.dtype)
    (hextents : source.layout.extents = destination.layout.extents) {coordinates : List Nat}
    (hindices : Scalar.indices coordinates = .ok coordinates)
    (hin : Layout.InBounds coordinates destination.layout.extents) :
    ∃ x heap, (copyAt .compute destination source (coordinates.map Scalar.ofIndex)).runFrom world =
        (.ok (), { world with heap }) ∧
      source.peek world.heap coordinates = .ok x ∧ world.heap.Touches ref heap ∧
      ∀ index, (heap.get ref).get? index =
        if index = offset + destination.layout.place coordinates then some x else (world.heap.get ref).get? index := by
  have hknown := hdestination.known ref offset hdata
  obtain ⟨hbuffer, size, hsize, -, hle⟩ := hdestination.sound.host hdata
  have hlt := Layout.place_lt_memorySize hsize hin
  have hin' : Layout.InBounds coordinates source.layout.extents := hextents ▸ hin
  obtain ⟨x, hx, hget⟩ := hsource.sound.exists_peek hfrom hindices hin'
  have hxdtype : x.dtype = destination.dtype := (Value.dtype_of_peek hsource.sound hx).trans hdtype
  obtain ⟨buffer, hset⟩ := HostBuffer.exists_set (hxdtype.trans hbuffer.symm)
    (Nat.lt_of_lt_of_le (Nat.add_lt_add_left hlt offset) hle)
  refine ⟨x, _, ?_, hx, Heap.touches_put hknown hset, fun index => ?_⟩
  · simp only [copyAt, Stateful.runFrom_bind, Context.runFrom_element, Value.elementAt_host hsource.sound hfrom hindices hin',
      Value.elementAt_host hdestination.sound hdata hindices hin, Context.runFrom_load, Value.held_host, hget]
    exact Context.runFrom_store hxdtype hset
  · rw [Heap.get_put_self _ _ hknown, HostBuffer.get?_of_set hset]

/-- A loop over coordinates copies their elements. Where no place is written
    twice, and the source lies elsewhere, the elements are found at the
    coordinates afterwards. -/
theorem exists_runFrom_forM_copyAt (hdestination : destination.Fits world.heap) (hdata : destination.data = .host ref offset)
    (hsource : source.Fits world.heap) (hfrom : source.data = .host origin start) (hdtype : source.dtype = destination.dtype)
    (hextents : source.layout.extents = destination.layout.extents) (visited : List (List Nat))
    (hvisited : ∀ coordinates ∈ visited, Scalar.indices coordinates = .ok coordinates ∧
      Layout.InBounds coordinates destination.layout.extents) :
    ∃ heap, (visited.forM fun coordinates =>
        copyAt .compute destination source (coordinates.map Scalar.ofIndex)).runFrom world = (.ok (), { world with heap }) ∧
      world.heap.Touches ref heap ∧
      (∀ index, (∀ coordinates ∈ visited, index ≠ offset + destination.layout.place coordinates) →
        (heap.get ref).get? index = (world.heap.get ref).get? index) ∧
      (origin ≠ ref →
        (visited.Pairwise fun coordinates other => destination.layout.place coordinates ≠ destination.layout.place other) →
        ∀ coordinates ∈ visited, destination.peek heap coordinates = source.peek world.heap coordinates) := by
  induction visited generalizing world with
  | nil => exact ⟨world.heap, rfl, .refl _ _, fun _ _ => rfl, fun _ _ _ hmem => (List.not_mem_nil hmem).elim⟩
  | cons coordinates rest ih =>
    obtain ⟨⟨hindices, hin⟩, hrest⟩ := List.forall_mem_cons.mp hvisited
    obtain ⟨x, between, hrun, hx, htouches, hbetween⟩ :=
      exists_runFrom_copyAt hdestination hdata hsource hfrom hdtype hextents hindices hin
    have hdestination' := hdestination.advance htouches.advances
    have hsource' := hsource.advance htouches.advances
    obtain ⟨heap, hrun', htouches', hkept, hcopied⟩ := @ih { world with heap := between } hdestination' hsource' hrest
    refine ⟨heap, ?_, htouches.trans htouches', fun index hnot => ?_, fun hne hplaces => ?_⟩
    · exact (Stateful.runFrom_bind_of_ok hrun _).trans hrun'
    · obtain ⟨hfirst, hnot⟩ := List.forall_mem_cons.mp hnot
      rw [hkept index hnot, hbetween, if_neg hfirst]
    · obtain ⟨hplaces, hplaces'⟩ := List.pairwise_cons.mp hplaces
      have halike : source.Alike world.heap between := by
        refine .of_get_eq fun other other' hother => ?_
        cases hfrom.symm.trans hother
        exact htouches.others _ hne
      refine List.forall_mem_cons.mpr ⟨?_, fun other hmem => ?_⟩
      · rw [hx]
        refine Value.peek_host (hdestination'.advance htouches'.advances).sound hdata hindices hin ?_
        rw [hkept _ fun other hmem heq => hplaces other hmem (Nat.add_left_cancel heq), hbetween, if_pos rfl]
      · rw [hcopied hne hplaces' other hmem, Value.peek_congr hsource.sound halike]

/-- A copy between host values of one type and the same extents succeeds. If
    they lie in different buffers, the destination holds afterwards what the
    source holds. -/
theorem exists_runFrom_copyInto (hactive : world.contexts.head? = some .compute) (hdestination : destination.Fits world.heap)
    (hdata : destination.data = .host ref offset) (hsource : source.Fits world.heap)
    (hfrom : source.data = .host origin start) (hdtype : source.dtype = destination.dtype)
    (hextents : source.layout.extents = destination.layout.extents) (hcount : Word.Signed destination.layout.extents.prod) :
    ∃ heap, (copyInto destination source).runFrom world = (.ok (), { world with heap }) ∧
      world.heap.Touches ref heap ∧
      (origin ≠ ref → destination.layout.Injective →
        ∀ coordinates ∈ Layout.rowMajor destination.layout.extents,
          destination.peek heap coordinates = source.peek world.heap coordinates) := by
  obtain ⟨heap, hrun, htouches, -, hcopied⟩ := exists_runFrom_forM_copyAt hdestination hdata hsource hfrom hdtype hextents
    (Layout.rowMajor destination.layout.extents) fun coordinates hmem =>
      ⟨Layout.indices_of_signed_prod hcount hmem, Layout.mem_rowMajor.mp hmem⟩
  refine ⟨heap, ?_, htouches, hcopied⟩
  have hensure : source.ensureDType destination.dtype = .ok () := Value.ensureDType_eq_ok.mpr hdtype
  simp only [copyInto, Stateful.runFrom_bind, Stateful.runFrom_liftM, hensure, liftM_error_ok, hextents, ne_eq,
    not_true, if_false, Action.runFrom_activeContext hactive, Context.runFrom_forEach]
  exact hrun

/-- A copy that succeeds is of one type and the same extents. The comparison
    comes before the first element. -/
theorem fits_of_copyInto {final : World σ} {u : Unit}
    (h : (copyInto destination source).runFrom world = (.ok u, final)) :
    source.dtype = destination.dtype ∧ source.layout.extents = destination.layout.extents := by
  unfold copyInto at h
  obtain ⟨_, _, hdtype, h⟩ := Stateful.runFrom_bind_eq_ok.mp h
  rw [Stateful.runFrom_liftM, Prod.mk.injEq, liftM_error_eq_ok_iff, Value.ensureDType_eq_ok] at hdtype
  refine ⟨hdtype.1, not_not.mp fun hextents => ?_⟩
  rw [if_pos hextents] at h
  obtain ⟨_, _, -, h⟩ := Stateful.runFrom_bind_eq_ok.mp h
  obtain ⟨_, _, -, h⟩ := Stateful.runFrom_bind_eq_ok.mp h
  cases h

/-- A copy that succeeds copies the elements one after another, in row-major
    order. -/
theorem runFrom_copyInto_eq_ok {final : World σ} {context : Context}
    (hactive : world.contexts.head? = some context) {u : Unit}
    (h : (copyInto destination source).runFrom world = (.ok u, final)) :
    (context.forEach source.layout (copyAt context destination source)).runFrom world = (.ok (), final) := by
  obtain ⟨hdtype, hextents⟩ := fits_of_copyInto h
  have hensure : source.ensureDType destination.dtype = .ok () := Value.ensureDType_eq_ok.mpr hdtype
  simpa only [copyInto, Stateful.runFrom_bind, Stateful.runFrom_liftM, hensure, liftM_error_ok, hextents,
    ne_eq, not_true, if_false, Action.runFrom_activeContext hactive] using h

end Elementwise

end StagedArrays
