import StagedArrays.Proofs.Layout.Span

namespace StagedArrays

namespace Layout

/-- A layout of given extents without gaps, of so many elements. Each increment
    is the product of the extents that follow. -/
structure Packs (layout : Layout) (extents : List Nat) (size : Nat) : Prop where
  increments_eq : packedIncrements extents = .ok (layout.increments, size)
  extents_eq : layout.extents = extents

/-- A packed layout packs its extents into some size. -/
theorem packed_eq_ok {extents : List Nat} {layout : Layout} (h : packed extents = .ok layout) :
    ∃ size, layout.Packs extents size := by
  simp only [packed, bind_eq_ok_iff] at h
  obtain ⟨⟨increments, size⟩, hincrements, h⟩ := h
  cases h
  exact ⟨size, hincrements, rfl⟩

/-- What packing a further extent does: the size of the inner ones is its
    increment, and the product with it must be a machine word. -/
theorem packedIncrements_cons {extent size : Nat} {extents increments : List Nat}
    (h : packedIncrements (extent :: extents) = .ok (increments, size)) :
    ∃ inner count, packedIncrements extents = .ok (inner, count) ∧ increments = count :: inner ∧
      size = count * extent ∧ size < Word.bound := by
  simp only [packedIncrements, bind_eq_ok_iff, Word.mul_eq_ok_iff] at h
  obtain ⟨⟨inner, count⟩, hinner, _, ⟨rfl, hbound⟩, h⟩ := h
  cases h
  exact ⟨inner, count, hinner, rfl, rfl, hbound⟩

/-- The size of a packed layout is the product of its extents. That no product
    overflows is part of its being packed. -/
theorem size_eq_prod {extents increments : List Nat} {size : Nat}
    (h : packedIncrements extents = .ok (increments, size)) : size = extents.prod := by
  induction extents generalizing increments size with
  | nil =>
    cases h
    rfl
  | cons extent extents ih =>
    obtain ⟨inner, count, hinner, rfl, rfl, -⟩ := packedIncrements_cons h
    rw [ih hinner, List.prod_cons, Nat.mul_comm]

/-- The size of a packed layout is a machine word. The same is true of all its
    increments. -/
theorem size_lt_bound {extents increments : List Nat} {size : Nat}
    (h : packedIncrements extents = .ok (increments, size)) : size < Word.bound := by
  cases extents with
  | nil =>
    cases h
    decide
  | cons extent extents =>
    obtain ⟨_, _, _, _, _, hbound⟩ := packedIncrements_cons h
    exact hbound

theorem prod_pos {extents : List Nat} (hpositive : 0 ∉ extents) : 0 < extents.prod :=
  List.prod_pos_iff_forall_pos_nat.mpr fun _ hmem => Nat.pos_of_ne_zero fun hzero => hpositive (hzero ▸ hmem)

/-- No extent is greater than the product of all, unless one of them is zero. In
    that case the product is zero. -/
theorem le_prod_of_mem {extents : List Nat} {extent : Nat} (hpositive : 0 ∉ extents) (h : extent ∈ extents) :
    extent ≤ extents.prod := by
  induction extents with
  | nil => cases h
  | cons first extents ih =>
    simp only [List.mem_cons, not_or] at hpositive
    rw [List.prod_cons]
    rcases List.mem_cons.mp h with rfl | hmem
    · exact Nat.le_mul_of_pos_right _ (prod_pos hpositive.2)
    · exact Nat.le_trans (ih hpositive.2 hmem) (Nat.le_mul_of_pos_left _ (Nat.pos_of_ne_zero (Ne.symm hpositive.1)))

/-- Each coordinate in bounds is below one of the extents. It is the one of its
    own dimension. -/
theorem exists_lt_of_inBounds {coordinates extents : List Nat} {index : Nat} (h : InBounds coordinates extents)
    (hmem : index ∈ coordinates) : ∃ extent ∈ extents, index < extent := by
  induction h with
  | nil => cases hmem
  | cons hlt _ ih =>
    rcases List.mem_cons.mp hmem with rfl | hmem
    · exact ⟨_, List.mem_cons_self, hlt⟩
    · obtain ⟨extent, hextent, hlt⟩ := ih hmem
      exact ⟨extent, List.mem_cons_of_mem _ hextent, hlt⟩

/-- Row-major order is the order of the elements in packed storage. Their
    offsets are the numbers from zero on. -/
theorem map_sum_rowMajor {extents increments : List Nat} {size : Nat}
    (h : packedIncrements extents = .ok (increments, size)) :
    (rowMajor extents).map (fun coordinates => (List.zipWith (· * ·) coordinates increments).sum) = List.range size := by
  induction extents generalizing increments size with
  | nil =>
    cases h
    rfl
  | cons extent extents ih =>
    obtain ⟨inner, count, hinner, rfl, rfl, -⟩ := packedIncrements_cons h
    have hrow : ∀ index, ((rowMajor extents).map (index :: ·)).map
        (fun coordinates => (List.zipWith (· * ·) coordinates (count :: inner)).sum) =
          (List.range count).map (index * count + ·) := by
      intro index
      rw [List.map_map, ← ih hinner, List.map_map]
      exact List.map_congr_left fun _ _ => List.sum_cons
    rw [rowMajor, List.map_flatMap]
    simp only [hrow]
    clear h hrow
    induction extent with
    | zero => rfl
    | succ extent ihextent =>
      rw [List.range_succ, List.flatMap_append, ihextent, Nat.mul_succ, List.range_add]
      simp [Nat.mul_comm]

/-- The reach of a packed shape without an empty dimension is one less than its
    size. -/
theorem reach_packed {extents increments : List Nat} {size : Nat}
    (h : packedIncrements extents = .ok (increments, size)) (hpositive : 0 ∉ extents) :
    reach (extents.zip increments) + 1 = size := by
  induction extents generalizing increments size with
  | nil =>
    cases h
    rfl
  | cons extent extents ih =>
    obtain ⟨inner, count, hinner, rfl, rfl, -⟩ := packedIncrements_cons h
    simp only [List.mem_cons, not_or] at hpositive
    have hrest := ih hinner hpositive.2
    obtain ⟨rest, rfl⟩ := Nat.exists_eq_succ_of_ne_zero (Ne.symm hpositive.1)
    simp only [reach, List.zip_cons_cons, List.map_cons, List.sum_cons, Nat.succ_eq_add_one, Nat.add_sub_cancel,
      Nat.mul_succ] at hrest ⊢
    rw [Nat.mul_comm rest count]
    omega

/-- The span is computed without overflow if the sum that it comes to is a
    machine word. Partial sums are no greater. -/
theorem spanFrom_of_lt {total : Nat} {dims : List (Nat × Nat)} (h : total + reach dims < Word.bound) :
    spanFrom total dims = .ok (total + reach dims) := by
  induction dims generalizing total with
  | nil => rfl
  | cons dim dims ih =>
    obtain ⟨extent, increment⟩ := dim
    simp only [reach, List.map_cons, List.sum_cons] at h ih ⊢
    have hmul : Word.mul (extent - 1) increment = .ok ((extent - 1) * increment) :=
      Word.mul_eq_ok_iff.mpr ⟨rfl, by omega⟩
    have hadd : Word.add total ((extent - 1) * increment) = .ok (total + (extent - 1) * increment) :=
      Word.add_eq_ok_iff.mpr ⟨rfl, by omega⟩
    rw [spanFrom, hmul, ok_bind, hadd, ok_bind, ih (by omega), Nat.add_assoc]

/-- A layout whose reach is within a word can be measured. The size is one more
    than the reach. -/
theorem memorySize_of_lt {layout : Layout} (hpositive : 0 ∉ layout.extents)
    (hbound : 1 + reach (layout.extents.zip layout.increments) < Word.bound) :
    layout.memorySize = .ok (1 + reach (layout.extents.zip layout.increments)) := by
  rw [memorySize, if_neg hpositive, spanFrom_of_lt (by omega), ok_bind, Nat.zero_add]
  exact Word.add_eq_ok_iff.mpr ⟨rfl, hbound⟩

namespace Packs

variable {layout : Layout} {extents coordinates : List Nat} {size : Nat}

theorem self (h : layout.Packs extents size) : layout.Packs layout.extents size := by rwa [h.extents_eq]

/-- A layout that packs extents is what packing them gives. So it is determined
    by them. -/
theorem packed_eq (h : layout.Packs extents size) : packed extents = .ok layout := by
  obtain ⟨hincrements, rfl⟩ := h
  rw [packed, hincrements]
  rfl

theorem formed (h : layout.Packs extents size) : layout.Formed := by
  rw [Formed, h.extents_eq]
  exact length_packedIncrements h.increments_eq

theorem lt_bound (h : layout.Packs extents size) : size < Word.bound := size_lt_bound h.increments_eq

/-- A packed layout spans as many elements as it has. There are no gaps in
    it. -/
theorem memorySize_eq (h : layout.Packs extents size) : layout.memorySize = .ok size := by
  by_cases hzero : 0 ∈ extents
  · have hsize : size = 0 := by
      rw [size_eq_prod h.increments_eq, ← Layout.length_rowMajor, rowMajor_eq_nil_of_zero_mem hzero, List.length_nil]
    rw [memorySize, h.extents_eq, if_pos hzero, hsize]
  · have hreach : size = 1 + reach (layout.extents.zip layout.increments) := by
      have hpacked := reach_packed h.increments_eq hzero
      rw [h.extents_eq]
      omega
    rw [memorySize_of_lt (by rwa [h.extents_eq]) (hreach ▸ h.lt_bound), hreach]

theorem map_place (h : layout.Packs extents size) : (rowMajor extents).map layout.place = List.range size :=
  map_sum_rowMajor h.increments_eq

/-- The coordinates in row-major order lead to the elements one after
    another. -/
theorem place_getElem (h : layout.Packs extents size) {index : Nat} (hlt : index < (rowMajor extents).length) :
    layout.place (rowMajor extents)[index] = index := by
  have hmap := h.map_place
  have hget : ((rowMajor extents).map layout.place)[index]? = some (layout.place (rowMajor extents)[index]) := by
    rw [List.getElem?_map, List.getElem?_eq_getElem hlt, Option.map_some]
  rw [hmap] at hget
  obtain ⟨_, hrange⟩ := List.getElem?_eq_some_iff.mp hget
  rw [← hrange, List.getElem_range]

theorem length_rowMajor (h : layout.Packs extents size) : (rowMajor extents).length = size := by
  rw [Layout.length_rowMajor, size_eq_prod h.increments_eq]

/-- Coordinates inside a packed shape are machine words. Their extents are at
    most the size. -/
theorem lt_bound_of_inBounds (h : layout.Packs extents size) (hin : InBounds coordinates extents) :
    ∀ index ∈ coordinates, index < Word.bound := by
  intro index hmem
  obtain ⟨extent, hextent, hlt⟩ := exists_lt_of_inBounds hin hmem
  have hle := le_prod_of_mem hin.zero_notMem hextent
  have hbound := h.lt_bound
  rw [size_eq_prod h.increments_eq] at hbound
  omega

theorem contiguous_eq (h : layout.Packs extents size) : layout.contiguous = .ok layout := by
  rw [contiguous, h.extents_eq, h.packed_eq]

end Packs

end Layout

end StagedArrays
