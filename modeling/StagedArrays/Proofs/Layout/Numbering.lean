import StagedArrays.Proofs.Layout.Packed

namespace StagedArrays

namespace Layout

variable {layout : Layout} {extents increments coordinates : List Nat} {extent size total place : Nat}

/-- A further extent can be packed if the inner ones can and the product of all
    extents is a machine word. -/
theorem packedIncrements_cons_completes_iff :
    (∃ packing, packedIncrements (extent :: extents) = .ok packing) ↔
      (extent :: extents).prod < Word.bound ∧ ∃ packing, packedIncrements extents = .ok packing := by
  constructor
  · rintro ⟨⟨increments, size⟩, h⟩
    have hbound := size_lt_bound h
    rw [size_eq_prod h] at hbound
    obtain ⟨inner, count, hinner, -⟩ := packedIncrements_cons h
    exact ⟨hbound, _, hinner⟩
  · rintro ⟨hbound, ⟨inner, count⟩, hinner⟩
    have hwhole : Word.mul count extent = .ok (count * extent) := by
      rw [List.prod_cons, ← size_eq_prod hinner, Nat.mul_comm] at hbound
      exact Word.mul_eq_ok_iff.mpr ⟨rfl, hbound⟩
    refine ⟨(count :: inner, count * extent), ?_⟩
    simp only [packedIncrements, hinner, ok_bind, hwhole]
    rfl

/-- By induction from the innermost dimension on, since each product is formed
    from the one inside it. -/
theorem packedIncrements_completes_iff :
    (∃ packing, packedIncrements extents = .ok packing) ↔
      ∀ inner, inner <:+ extents → inner.prod < Word.bound := by
  induction extents with
  | nil =>
    refine iff_of_true ⟨_, rfl⟩ fun inner hinner => ?_
    rw [List.suffix_nil.mp hinner]
    decide
  | cons extent extents ih =>
    simp only [packedIncrements_cons_completes_iff, ih, List.suffix_cons_iff, or_imp, forall_and, forall_eq]

/-- Packing overflows exactly if the product of some last extents does. A zero
    in front does not help, for the inner products come first. -/
theorem packed_completes_iff :
    (∃ layout, packed extents = .ok layout) ↔ ∀ inner, inner <:+ extents → inner.prod < Word.bound := by
  rw [← packedIncrements_completes_iff]
  constructor
  · rintro ⟨layout, h⟩
    obtain ⟨size, hpacks⟩ := packed_eq_ok h
    exact ⟨_, hpacks.increments_eq⟩
  · rintro ⟨⟨increments, size⟩, h⟩
    have hpacks : (⟨extents, increments⟩ : Layout).Packs extents size := ⟨h, rfl⟩
    exact ⟨_, hpacks.packed_eq⟩

/-- Without an empty dimension no product on the way is larger than the last
    one. -/
theorem foldlM_mul (hpositive : 0 ∉ extents) (hbound : total * extents.prod < Word.bound) :
    extents.foldlM Word.mul total = .ok (total * extents.prod) := by
  induction extents generalizing total with
  | nil =>
    rw [List.prod_nil, Nat.mul_one]
    rfl
  | cons extent extents ih =>
    simp only [List.mem_cons, not_or] at hpositive
    rw [List.prod_cons, ← Nat.mul_assoc] at hbound ⊢
    have hle := Nat.le_mul_of_pos_right (total * extent) (prod_pos hpositive.2)
    have hmul : Word.mul total extent = .ok (total * extent) := Word.mul_eq_ok_iff.mpr ⟨rfl, by omega⟩
    rw [List.foldlM_cons, hmul, ok_bind, ih hpositive.2 hbound]

namespace Packs

/-- The number of elements of a packed layout is the size it was packed with.
    The product of the extents is known not to overflow. -/
theorem elementCount_eq (h : layout.Packs extents size) (hpositive : 0 ∉ extents) :
    layout.elementCount = .ok size := by
  have hsize := size_eq_prod h.increments_eq
  have hbound := h.lt_bound
  rw [hsize, ← Nat.one_mul extents.prod] at hbound
  rw [elementCount, h.extents_eq, foldlM_mul hpositive hbound, Nat.one_mul, hsize]

theorem offset_eq (h : layout.Packs extents size) (hin : InBounds coordinates extents) :
    layout.offset coordinates = .ok (layout.place coordinates) :=
  offset_of_inBounds h.memorySize_eq (h.extents_eq.symm ▸ hin)

/-- Coordinates are counted in row-major order by their offsets. The first one
    has offset zero. -/
theorem offset_of_getElem? (h : layout.Packs extents size) (hget : (rowMajor extents)[place]? = some coordinates) :
    layout.offset coordinates = .ok place := by
  obtain ⟨hlt, rfl⟩ := List.getElem?_eq_some_iff.mp hget
  rw [h.offset_eq (mem_rowMajor.mp (List.getElem_mem hlt)), h.place_getElem hlt]

/-- Coordinates are in bounds exactly if the packed layout has a place for them
    below its size. -/
theorem inBounds_iff (h : layout.Packs extents size) :
    InBounds coordinates extents ↔ ∃ place, layout.offset coordinates = .ok place ∧ place < size := by
  constructor
  · intro hin
    exact ⟨_, h.offset_eq hin, place_lt_memorySize h.memorySize_eq (h.extents_eq.symm ▸ hin)⟩
  · rintro ⟨place, hoffset, -⟩
    exact h.extents_eq ▸ inBounds_of_offset h.formed hoffset

/-- Each place among the elements belongs to the coordinates that come in its
    turn, and to no others. -/
theorem existsUnique_offset (h : layout.Packs extents size) (hlt : place < size) :
    ∃! coordinates, layout.offset coordinates = .ok place := by
  rw [← h.length_rowMajor] at hlt
  refine ⟨(rowMajor extents)[place], h.offset_of_getElem? (List.getElem?_eq_getElem hlt), fun coordinates hoffset => ?_⟩
  have hin : InBounds coordinates extents := h.extents_eq ▸ inBounds_of_offset h.formed hoffset
  obtain ⟨turn, hturn⟩ := List.mem_iff_getElem?.mp (mem_rowMajor.mpr hin)
  obtain rfl : turn = place := Except.ok.inj ((h.offset_of_getElem? hturn).symm.trans hoffset)
  rw [List.getElem?_eq_getElem hlt] at hturn
  exact (Option.some.inj hturn).symm

end Packs

/-- A layout that has been made contiguous is so for good. Making it contiguous
    again changes nothing. -/
theorem contiguous_contiguous (layout : Layout) : (layout.contiguous >>= contiguous) = layout.contiguous := by
  cases hcontiguous : layout.contiguous with
  | error fault => rfl
  | ok other =>
    obtain ⟨size, hpacks⟩ := packed_eq_ok hcontiguous
    rw [ok_bind, hpacks.contiguous_eq]

/-- A layout is its own packed form exactly if it is packed. The extents are
    then those of the layout. -/
theorem contiguous_eq_self_iff : layout.contiguous = .ok layout ↔ ∃ extents, packed extents = .ok layout := by
  constructor
  · intro h
    exact ⟨_, h⟩
  · rintro ⟨extents, h⟩
    obtain ⟨size, hpacks⟩ := packed_eq_ok h
    exact hpacks.contiguous_eq

/-- A packed layout can be made of given extents exactly where the product of
    the innermost ones, however many, is a word. Unless a dimension is empty, it
    then spans as many elements as it has, the product of its extents; the
    coordinates in row-major order lead to the elements one after another, and
    every place among them is the offset of coordinates inside, and of one list
    only. Making a layout contiguous keeps its extents, doing so twice makes no
    difference, and it gives back the layout itself exactly if that is
    packed. -/
theorem packed_consecutive (extents : List Nat) (layout : Layout) :
    ((∃ packing, packed extents = .ok packing) ↔ ∀ inner, inner <:+ extents → inner.prod < Word.bound) ∧
    (packed extents = .ok layout → 0 ∉ extents →
      layout.memorySize = .ok extents.prod ∧ layout.elementCount = .ok extents.prod ∧
      layout.coordinates.length = extents.prod ∧
      (∀ place coordinates, layout.coordinates[place]? = some coordinates →
        layout.offset coordinates = .ok place) ∧
      (∀ coordinates, InBounds coordinates extents ↔
        ∃ place, layout.offset coordinates = .ok place ∧ place < extents.prod) ∧
      ∀ place < extents.prod, ∃! coordinates, layout.offset coordinates = .ok place) ∧
    (layout.contiguous >>= contiguous) = layout.contiguous ∧
    (∀ other, layout.contiguous = .ok other → other.extents = layout.extents) ∧
    (layout.contiguous = .ok layout ↔ ∃ extents, packed extents = .ok layout) := by
  refine ⟨packed_completes_iff, fun hpacked hpositive => ?_, contiguous_contiguous layout,
    fun other => extents_eq_of_packed, contiguous_eq_self_iff⟩
  obtain ⟨size, hpacks⟩ := packed_eq_ok hpacked
  obtain rfl := size_eq_prod hpacks.increments_eq
  rw [coordinates_eq, hpacks.extents_eq]
  exact ⟨hpacks.memorySize_eq, hpacks.elementCount_eq hpositive, hpacks.length_rowMajor,
    fun place coordinates => hpacks.offset_of_getElem?, fun coordinates => hpacks.inBounds_iff,
    fun place => hpacks.existsUnique_offset⟩

/-- Two rows of three elements, one after the other. -/
def adjacentRows : Layout := ⟨[2, 3], [3, 1]⟩

/-- Rows too many to be counted cannot be packed, not even inside an empty
    dimension. -/
theorem packed_consecutive_adjacentRows :
    (¬∃ packing, packed [0, 0x100000000, 0x100000000] = .ok packing) ∧
    packed [2, 3] = .ok adjacentRows ∧ adjacentRows.memorySize = .ok 6 ∧ adjacentRows.elementCount = .ok 6 ∧
    adjacentRows.offset [1, 1] = .ok 4 ∧ (∃! coordinates, adjacentRows.offset coordinates = .ok 4) ∧
    adjacentRows.contiguous = .ok adjacentRows := by
  have hpacked : packed [2, 3] = .ok adjacentRows := by rfl
  obtain ⟨-, hnumbered, -, -, hself⟩ := packed_consecutive [2, 3] adjacentRows
  obtain ⟨hsize, hcount, -, hturns, -, hunique⟩ := hnumbered hpacked (by decide)
  refine ⟨fun hcompletes => ?_, hpacked, hsize, hcount, hturns 4 [1, 1] (by decide), hunique 4 (by decide),
    hself.mpr ⟨_, hpacked⟩⟩
  have hinner := (packed_consecutive [0, 0x100000000, 0x100000000] scalar).1.mp hcompletes
    [0x100000000, 0x100000000] ⟨[0], rfl⟩
  exact absurd hinner (by decide)

end Layout

end StagedArrays
