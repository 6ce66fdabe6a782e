import StagedArrays.Proofs.Layout.Span

namespace StagedArrays

namespace Layout

variable {layout : Layout} {dim first total index extent increment size : Nat}
  {extents increments coordinates : List Nat}

/-- Coordinates in front, none of which reaches its extent, already lead further
    than a word can count. The coordinates behind them do not matter. -/
def Overflows (layout : Layout) (coordinates : List Nat) : Prop :=
  ∃ count, InBounds (coordinates.take count) (layout.extents.take count) ∧
    Word.bound ≤ layout.place (coordinates.take count)

/-- By induction on the dimensions: the sum so far is a word, and the next
    coordinate is refused, makes the sum overflow, or is added to it. -/
theorem offsetFrom_eq_fault_iff (hincrements : increments.length = extents.length)
    (hlength : coordinates.length = extents.length) (htotal : total < Word.bound) :
    (∃ fault, offsetFrom dim total extents increments coordinates = .error (.fault fault)) ↔
      ∃ count, InBounds (coordinates.take count) (extents.take count) ∧
        Word.bound ≤ total + (List.zipWith (· * ·) (coordinates.take count) increments).sum := by
  induction extents generalizing dim total increments coordinates with
  | nil =>
    obtain rfl := List.length_eq_zero_iff.mp hlength
    constructor
    · rintro ⟨fault, h⟩
      cases increments <;> cases h
    · rintro ⟨count, -, h⟩
      simp at h
      omega
  | cons extent extents ih =>
    obtain ⟨increment, increments, rfl⟩ := List.exists_cons_of_length_eq_add_one hincrements
    obtain ⟨index, coordinates, rfl⟩ := List.exists_cons_of_length_eq_add_one hlength
    obtain ⟨hle, hrefused⟩ | ⟨hlt, hbound, hfault⟩ | ⟨hlt, hbound, hstep⟩ :=
      offsetFrom_cons_cases dim total extent increment index extents increments coordinates
    · rw [hrefused]
      apply iff_of_false
      · rintro ⟨fault, h⟩
        cases h
      · rintro ⟨count, hin, hbeyond⟩
        cases count with
        | zero => simp at hbeyond; omega
        | succ count => exact Nat.not_le_of_lt (List.forall₂_cons.mp hin).1 hle
    · apply iff_of_true hfault
      refine ⟨1, .cons hlt .nil, ?_⟩
      simpa using hbound
    · rw [hstep, ih (by simpa using hincrements) (by simpa using hlength) hbound]
      constructor
      · rintro ⟨count, hin, hbeyond⟩
        refine ⟨count + 1, .cons hlt hin, ?_⟩
        simpa [Nat.add_assoc] using hbeyond
      · rintro ⟨count, hin, hbeyond⟩
        cases count with
        | zero => simp at hbeyond; omega
        | succ count =>
          refine ⟨count, (List.forall₂_cons.mp hin).2, ?_⟩
          simpa [Nat.add_assoc] using hbeyond

/-- An offset overflows where the coordinates in front of the first one to be
    refused lead too far. -/
theorem offset_eq_fault_iff (hformed : layout.Formed) (hlength : coordinates.length = layout.rank) :
    (∃ fault, layout.offset coordinates = .error (.fault fault)) ↔ layout.Overflows coordinates := by
  rw [offset_eq_offsetFrom hlength, offsetFrom_eq_fault_iff hformed hlength (by decide)]
  simp only [Nat.zero_add]
  rfl

/-- There is an offset exactly where the coordinates are inside and their place
    is a word. -/
theorem offset_eq_ok_iff {place : Nat} (hformed : layout.Formed) :
    layout.offset coordinates = .ok place ↔
      InBounds coordinates layout.extents ∧ layout.place coordinates < Word.bound ∧
        place = layout.place coordinates := by
  constructor
  · intro h
    obtain ⟨hlength, rfl⟩ := place_eq_of_offset h
    have hin := inBounds_of_offset hformed h
    refine ⟨hin, Nat.lt_of_not_le fun hle => ?_, rfl⟩
    have hoverflows : layout.Overflows coordinates := by
      refine ⟨layout.rank, ?_, ?_⟩
      · rwa [rank, List.take_length, ← rank, ← hlength, List.take_length]
      · rwa [← hlength, List.take_length]
    obtain ⟨fault, hfault⟩ := (offset_eq_fault_iff hformed hlength).mpr hoverflows
    cases h.symm.trans hfault
  · rintro ⟨hin, hbound, rfl⟩
    rw [offset_eq_offsetFrom hin.length_eq, offsetFrom_of_inBounds hin, Nat.zero_add]
    · rfl
    · rwa [Nat.zero_add]

/-- The first dimensions reach no further than all of them. So a part of the
    offset cannot exceed the span. -/
theorem reach_zip_take_le (extents increments : List Nat) (count : Nat) :
    reach ((extents.take count).zip increments) ≤ reach (extents.zip increments) := by
  induction extents generalizing increments count with
  | nil => simp
  | cons extent extents ih =>
    cases count with
    | zero => simp [reach]
    | succ count =>
      cases increments with
      | nil => simp
      | cons increment increments =>
        have hrest := ih increments count
        simp only [reach, List.take_succ_cons, List.zip_cons_cons, List.map_cons, List.sum_cons] at hrest ⊢
        omega

/-- What a layout without an empty dimension spans is a bound for every partial
    sum. -/
theorem not_overflows (hsize : layout.memorySize = .ok size) (hpositive : 0 ∉ layout.extents)
    (coordinates : List Nat) : ¬layout.Overflows coordinates := by
  rintro ⟨count, hin, hle⟩
  obtain ⟨rfl, hbound⟩ := memorySize_eq_ok hsize hpositive
  have hplace : layout.place (coordinates.take count) ≤ reach ((layout.extents.take count).zip layout.increments) :=
    sum_le_reach hin
  have hreach := reach_zip_take_le layout.extents layout.increments count
  omega

/-- The last coordinates of a shape. -/
def last (extents : List Nat) : List Nat := extents.map (· - 1)

/-- The last coordinates are in bounds unless an extent is zero. They exist for
    every shape, but for an empty one they lead nowhere. -/
theorem inBounds_last (hpositive : 0 ∉ extents) : InBounds (last extents) extents := by
  rw [InBounds, last, List.forall₂_map_left_iff, List.forall₂_same]
  intro extent hmem
  have hne : extent ≠ 0 := fun hzero => hpositive (hzero ▸ hmem)
  omega

/-- The last element lies as far from the first as the shape reaches. The span
    is one more than that. -/
theorem place_last (layout : Layout) :
    layout.place (last layout.extents) = reach (layout.extents.zip layout.increments) := by
  rw [place, last, reach, List.zipWith_map_left, List.zip_eq_zipWith, List.map_zipWith]

/-- Zero coordinates are at offset zero, whatever the increments are. So the
    first element is where the layout begins. -/
theorem sum_zeros (rank : Nat) (increments : List Nat) :
    (List.zipWith (· * ·) (List.replicate rank 0) increments).sum = 0 := by
  induction rank generalizing increments with
  | zero => rfl
  | succ rank ih =>
    cases increments with
    | nil => rfl
    | cons increment increments =>
      rw [List.replicate_succ, List.zipWith_cons_cons, List.sum_cons, ih, Nat.zero_mul]

/-- Zero coordinates are in bounds unless an extent is zero. There is one for
    each dimension. -/
theorem inBounds_origin (hpositive : 0 ∉ layout.extents) :
    InBounds (List.replicate layout.rank 0) layout.extents := by
  have hzeros := inBounds_zeros hpositive
  rwa [List.map_const'] at hzeros

/-- A dimension whose coordinate reaches its extent, where none before it
    does. -/
structure LeavesAt (coordinates extents : List Nat) (dim index extent : Nat) : Prop where
  index_eq : coordinates[dim]? = some index
  extent_eq : extents[dim]? = some extent
  extent_le : extent ≤ index
  before : InBounds (coordinates.take dim) (extents.take dim)

/-- Coordinates outside a shape of their rank leave it in some dimension
    first. -/
theorem exists_leavesAt (hlength : coordinates.length = extents.length) (h : ¬InBounds coordinates extents) :
    ∃ dim index extent, LeavesAt coordinates extents dim index extent := by
  induction extents generalizing coordinates with
  | nil =>
    obtain rfl := List.length_eq_zero_iff.mp hlength
    exact (h .nil).elim
  | cons extent extents ih =>
    obtain ⟨index, coordinates, rfl⟩ := List.exists_cons_of_length_eq_add_one hlength
    by_cases hlt : index < extent
    · have hrest : ¬InBounds coordinates extents := fun hrest => h (.cons hlt hrest)
      obtain ⟨dim, later, limit, hindex, hextent, hle, hbefore⟩ := ih (by simpa using hlength) hrest
      exact ⟨dim + 1, later, limit, hindex, hextent, hle, .cons hlt hbefore⟩
    · exact ⟨0, index, extent, rfl, rfl, Nat.le_of_not_lt hlt, .nil⟩

/-- By induction on the dimensions before the one that is left, all of which are
    added up. -/
theorem offsetFrom_of_leavesAt (hincrements : increments.length = extents.length)
    (h : LeavesAt coordinates extents dim index extent)
    (hbound : total + (List.zipWith (· * ·) (coordinates.take dim) increments).sum < Word.bound) :
    offsetFrom first total extents increments coordinates =
      .error (.error (.indexOutOfBounds (first + dim) index extent)) := by
  obtain ⟨hindex, hextent, hle, hbefore⟩ := h
  induction dim generalizing first total extents increments coordinates with
  | zero =>
    obtain ⟨coordinates, rfl⟩ := List.head?_eq_some_iff.mp (List.head?_eq_getElem?.trans hindex)
    obtain ⟨extents, rfl⟩ := List.head?_eq_some_iff.mp (List.head?_eq_getElem?.trans hextent)
    obtain ⟨increment, increments, rfl⟩ := List.exists_cons_of_length_eq_add_one hincrements
    exact offsetFrom_cons_of_le hle
  | succ dim ih =>
    cases coordinates with
    | nil => cases hindex
    | cons head coordinates =>
      cases extents with
      | nil => cases hextent
      | cons limit extents =>
        obtain ⟨increment, increments, rfl⟩ := List.exists_cons_of_length_eq_add_one hincrements
        obtain ⟨hlt, hbefore⟩ := List.forall₂_cons.mp hbefore
        simp only [List.take_succ_cons, List.zipWith_cons_cons, List.sum_cons, ← Nat.add_assoc] at hbound
        rw [offsetFrom_cons_of_lt hlt (by omega),
          ih (by simpa using hincrements) hbound hindex hextent hbefore, Nat.add_assoc, Nat.add_comm 1]

/-- Coordinates of another number than the rank are refused. This comes before
    anything is computed. -/
theorem offset_of_length_ne (hlength : coordinates.length ≠ layout.rank) :
    layout.offset coordinates = .error (.error (.rankMismatch coordinates.length layout.rank)) := by
  rw [offset, ensureRank, if_pos (Ne.symm hlength)]
  rfl

/-- Where no sum overflows, the first dimension that is left is named. The error
    tells the coordinate and the extent as well. -/
theorem offset_of_leavesAt (hformed : layout.Formed) (hlength : coordinates.length = layout.rank)
    (hoverflows : ¬layout.Overflows coordinates) (h : LeavesAt coordinates layout.extents dim index extent) :
    layout.offset coordinates = .error (.error (.indexOutOfBounds dim index extent)) := by
  have hbound : layout.place (coordinates.take dim) < Word.bound :=
    Nat.lt_of_not_le fun hle => hoverflows ⟨dim, h.before, hle⟩
  rw [offset_eq_offsetFrom hlength, offsetFrom_of_leavesAt hformed h (by rwa [Nat.zero_add]), Nat.zero_add]

/-- What a layout without an empty dimension spans is exactly what its offsets
    run through. Every offset inside is defined and below the span, the last
    element attains the last place in it and the origin is at zero. Coordinates
    of another rank have no offset, nor have those outside: the first dimension
    that they leave is refused, before any sum can overflow. -/
theorem memorySize_exact (hformed : layout.Formed) (hsize : layout.memorySize = .ok size)
    (hpositive : 0 ∉ layout.extents) :
    (∀ coordinates, InBounds coordinates layout.extents →
      ∃ place, layout.offset coordinates = .ok place ∧ place < size) ∧
    (∃ coordinates place, InBounds coordinates layout.extents ∧ layout.offset coordinates = .ok place ∧
      place + 1 = size) ∧
    layout.offset (List.replicate layout.rank 0) = .ok 0 ∧
    (∀ coordinates, coordinates.length ≠ layout.rank →
      layout.offset coordinates = .error (.error (.rankMismatch coordinates.length layout.rank))) ∧
    (∀ coordinates, coordinates.length = layout.rank → ¬InBounds coordinates layout.extents →
      ∃ dim index extent, LeavesAt coordinates layout.extents dim index extent ∧
        layout.offset coordinates = .error (.error (.indexOutOfBounds dim index extent))) := by
  have hlast := inBounds_last hpositive
  obtain ⟨hreach, -⟩ := memorySize_eq_ok hsize hpositive
  refine ⟨fun coordinates hin => ?_, ?_, ?_, fun coordinates => offset_of_length_ne, fun coordinates hlength hout => ?_⟩
  · exact ⟨_, offset_of_inBounds hsize hin, place_lt_memorySize hsize hin⟩
  · refine ⟨_, _, hlast, offset_of_inBounds hsize hlast, ?_⟩
    rw [place_last, hreach, Nat.add_comm]
  · rw [offset_of_inBounds hsize (inBounds_origin hpositive), place, sum_zeros]
  · obtain ⟨dim, index, extent, hleaves⟩ := exists_leavesAt hlength hout
    have hoverflows := not_overflows hsize hpositive coordinates
    exact ⟨dim, index, extent, hleaves, offset_of_leavesAt hformed hlength hoverflows hleaves⟩

/-- Two rows of three elements, as far apart as a word can count. The last
    element is just within reach. -/
def distantRows : Layout := ⟨[2, 3], [0xfffffffffffffffc, 1]⟩

/-- Two rows so far apart that the last element is at the second largest offset
    there is. -/
theorem memorySize_exact_distantRows :
    distantRows.Formed ∧ distantRows.memorySize = .ok 0xffffffffffffffff ∧ 0 ∉ distantRows.extents ∧
      (∃ place, distantRows.offset [1, 1] = .ok place ∧ place < 0xffffffffffffffff) ∧
      (∃ coordinates place, InBounds coordinates [2, 3] ∧ distantRows.offset coordinates = .ok place ∧
        place + 1 = 0xffffffffffffffff) ∧
      distantRows.offset [0, 0] = .ok 0 ∧
      distantRows.offset [1] = .error (.error (.rankMismatch 1 2)) ∧
      ∃ dim index extent, LeavesAt [1, 3] [2, 3] dim index extent ∧
        distantRows.offset [1, 3] = .error (.error (.indexOutOfBounds dim index extent)) := by
  have hformed : distantRows.Formed := rfl
  have hsize : distantRows.memorySize = .ok 0xffffffffffffffff := by rfl
  have hpositive : 0 ∉ distantRows.extents := by decide
  obtain ⟨hinside, hattained, horigin, hrank, houtside⟩ := memorySize_exact hformed hsize hpositive
  exact ⟨hformed, hsize, hpositive, hinside [1, 1] (by decide), hattained, horigin, hrank [1] (by decide),
    houtside [1, 3] rfl (by decide)⟩

end Layout

end StagedArrays
