import StagedArrays.Proofs.Layout.Coordinates

namespace StagedArrays

namespace Layout

/-- One increment for each dimension, as every way to make a layout sees to. The
    fields alone would allow for others. -/
def Formed (layout : Layout) : Prop := layout.increments.length = layout.extents.length

/-- How many elements coordinates lie from the first one, as a mathematical
    integer. -/
def place (layout : Layout) (coordinates : List Nat) : Nat :=
  (List.zipWith (· * ·) coordinates layout.increments).sum

/-- How far the last element of a shape lies from the first, as a mathematical
    integer. -/
def reach (dims : List (Nat × Nat)) : Nat := (dims.map fun (extent, increment) => (extent - 1) * increment).sum

/-- If the span is computed, it is the sum of what the dimensions reach. The
    computation stops where the sum exceeds a word. -/
theorem spanFrom_eq_ok {total span : Nat} {dims : List (Nat × Nat)}
    (h : spanFrom total dims = .ok span) : span = total + reach dims := by
  induction dims generalizing total with
  | nil =>
    cases h
    rfl
  | cons dim dims ih =>
    obtain ⟨extent, increment⟩ := dim
    simp only [spanFrom, bind_eq_ok_iff, Word.mul_eq_ok_iff, Word.add_eq_ok_iff] at h
    obtain ⟨_, ⟨rfl, _⟩, _, ⟨rfl, _⟩, h⟩ := h
    rw [ih h]
    simp only [reach, List.map_cons, List.sum_cons]
    omega

/-- A layout without an empty dimension spans its last element and all before
    it. -/
theorem memorySize_eq_ok {layout : Layout} {size : Nat} (h : layout.memorySize = .ok size)
    (hpositive : 0 ∉ layout.extents) :
    size = 1 + reach (layout.extents.zip layout.increments) ∧ size < Word.bound := by
  simp only [memorySize, if_neg hpositive, bind_eq_ok_iff, Word.add_eq_ok_iff] at h
  obtain ⟨span, hspan, rfl, hbound⟩ := h
  exact ⟨by rw [spanFrom_eq_ok hspan, Nat.zero_add], hbound⟩

/-- A memory size is a machine word. There would be a fault otherwise. -/
theorem memorySize_lt_bound {layout : Layout} {size : Nat} (h : layout.memorySize = .ok size) :
    size < Word.bound := by
  by_cases hzero : 0 ∈ layout.extents
  · rw [memorySize, if_pos hzero] at h
    cases h
    decide
  · exact (memorySize_eq_ok h hzero).2

/-- No coordinates in bounds lead further than the last ones. Each of them is at
    most the last of its dimension. -/
theorem sum_le_reach {coordinates extents increments : List Nat} (h : InBounds coordinates extents) :
    (List.zipWith (· * ·) coordinates increments).sum ≤ reach (extents.zip increments) := by
  induction h generalizing increments with
  | nil => simp
  | cons hlt _ ih =>
    cases increments with
    | nil => simp
    | cons increment increments =>
      have hstep := Nat.mul_le_mul_right increment (Nat.le_sub_one_of_lt hlt)
      have hrest := @ih increments
      simp only [List.zipWith_cons_cons, List.sum_cons, List.zip_cons_cons, reach, List.map_cons] at *
      omega

/-- Every element of a layout lies within what the layout spans. So storage of
    that size has room for all of them. -/
theorem place_lt_memorySize {layout : Layout} {size : Nat} {coordinates : List Nat}
    (hsize : layout.memorySize = .ok size) (h : InBounds coordinates layout.extents) :
    layout.place coordinates < size := by
  obtain ⟨rfl, _⟩ := memorySize_eq_ok hsize h.zero_notMem
  have hle := @sum_le_reach _ _ layout.increments h
  simp only [place]
  omega

section Steps

variable {layout : Layout} {dim total extent increment index : Nat} {extents increments coordinates : List Nat}

/-- Coordinates of the right number have their offset computed from the first
    dimension on. The sum begins with zero. -/
theorem offset_eq_offsetFrom (hlength : coordinates.length = layout.rank) :
    layout.offset coordinates = offsetFrom 0 0 layout.extents layout.increments coordinates := by
  rw [offset, ensureRank, if_neg (by simp [hlength])]
  rfl

theorem offsetFrom_cons_of_le (h : extent ≤ index) :
    offsetFrom dim total (extent :: extents) (increment :: increments) (index :: coordinates) =
      .error (.error (.indexOutOfBounds dim index extent)) := if_pos h

/-- A coordinate in bounds whose product or sum is no machine word ends the
    computation, before later coordinates are compared. -/
theorem offsetFrom_cons_of_overflow (hlt : index < extent) (hbound : Word.bound ≤ total + index * increment) :
    ∃ fault, offsetFrom dim total (extent :: extents) (increment :: increments) (index :: coordinates) =
      .error (.fault fault) := by
  simp only [offsetFrom, if_neg (Nat.not_le_of_lt hlt)]
  by_cases hmul : index * increment < Word.bound
  · have hreach : Word.mul index increment = .ok (index * increment) := Word.mul_eq_ok_iff.mpr ⟨rfl, hmul⟩
    have hsum : Word.add total (index * increment) = .error .addOverflow := if_neg (Nat.not_lt_of_le hbound)
    refine ⟨.addOverflow, ?_⟩
    rw [hreach]
    change ((liftM (Word.add total (index * increment)) : Except (Failure LayoutError) Nat) >>= _) = _
    rw [hsum]
    rfl
  · have hreach : Word.mul index increment = .error .multiplyOverflow := if_neg hmul
    refine ⟨.multiplyOverflow, ?_⟩
    rw [hreach]
    rfl

/-- A coordinate in bounds adds its part to the offset if there is room. Then
    the next dimension is looked at. -/
theorem offsetFrom_cons_of_lt (hlt : index < extent) (hbound : total + index * increment < Word.bound) :
    offsetFrom dim total (extent :: extents) (increment :: increments) (index :: coordinates) =
      offsetFrom (dim + 1) (total + index * increment) extents increments coordinates := by
  have hmul : Word.mul index increment = .ok (index * increment) := by
    rw [Word.mul_eq_ok_iff]
    exact ⟨rfl, by omega⟩
  have hadd : Word.add total (index * increment) = .ok (total + index * increment) := by
    rw [Word.add_eq_ok_iff]
    exact ⟨rfl, hbound⟩
  simp only [offsetFrom, if_neg (Nat.not_le_of_lt hlt), hmul]
  change ((liftM (Word.add total (index * increment)) : Except (Failure LayoutError) Nat) >>= _) = _
  rw [hadd]
  rfl

/-- An index is refused, makes the sum overflow, or is added up before the next
    one's turn comes. -/
theorem offsetFrom_cons_cases (dim total extent increment index : Nat) (extents increments coordinates : List Nat) :
    extent ≤ index ∧ offsetFrom dim total (extent :: extents) (increment :: increments) (index :: coordinates) =
        .error (.error (.indexOutOfBounds dim index extent)) ∨
      (index < extent ∧ Word.bound ≤ total + index * increment ∧
        ∃ fault, offsetFrom dim total (extent :: extents) (increment :: increments) (index :: coordinates) =
          .error (.fault fault)) ∨
      (index < extent ∧ total + index * increment < Word.bound ∧
        offsetFrom dim total (extent :: extents) (increment :: increments) (index :: coordinates) =
          offsetFrom (dim + 1) (total + index * increment) extents increments coordinates) := by
  by_cases hlt : index < extent
  · by_cases hbound : total + index * increment < Word.bound
    · exact .inr (.inr ⟨hlt, hbound, offsetFrom_cons_of_lt hlt hbound⟩)
    · have hle := Nat.le_of_not_lt hbound
      exact .inr (.inl ⟨hlt, hle, offsetFrom_cons_of_overflow hlt hle⟩)
  · have hle := Nat.le_of_not_lt hlt
    exact .inl ⟨hle, offsetFrom_cons_of_le hle⟩

end Steps

/-- Coordinates in bounds have their offset if the sum is a machine word. -/
theorem offsetFrom_of_inBounds {dim total : Nat} {extents increments coordinates : List Nat}
    (h : InBounds coordinates extents)
    (hbound : total + (List.zipWith (· * ·) coordinates increments).sum < Word.bound) :
    offsetFrom dim total extents increments coordinates =
      .ok (total + (List.zipWith (· * ·) coordinates increments).sum) := by
  induction h generalizing dim total increments with
  | nil => cases increments <;> simp [offsetFrom]
  | @cons index extent coordinates extents hlt _ ih =>
    cases increments with
    | nil => simp [offsetFrom]
    | cons increment increments =>
      simp only [List.zipWith_cons_cons, List.sum_cons] at hbound ⊢
      rw [offsetFrom_cons_of_lt hlt (by omega), ← Nat.add_assoc]
      exact ih (by omega)

/-- Coordinates inside a layout whose span is representable lead to their
    place. -/
theorem offset_of_inBounds {layout : Layout} {size : Nat} {coordinates : List Nat}
    (hsize : layout.memorySize = .ok size) (h : InBounds coordinates layout.extents) :
    layout.offset coordinates = .ok (layout.place coordinates) := by
  have hlt := place_lt_memorySize hsize h
  obtain ⟨_, hbound⟩ := memorySize_eq_ok hsize h.zero_notMem
  have hplace : layout.place coordinates < Word.bound := by omega
  rw [offset_eq_offsetFrom h.length_eq, offsetFrom_of_inBounds h, Nat.zero_add]
  · rfl
  · rwa [Nat.zero_add]

/-- Whatever coordinates lead to is their place. -/
theorem eq_sum_of_offsetFrom {dim total offset : Nat} {extents increments coordinates : List Nat}
    (hlength : coordinates.length = extents.length)
    (h : offsetFrom dim total extents increments coordinates = .ok offset) :
    offset = total + (List.zipWith (· * ·) coordinates increments).sum := by
  induction extents generalizing dim total increments coordinates with
  | nil =>
    cases coordinates with
    | nil =>
      cases h
      simp
    | cons => simp at hlength
  | cons extent extents ih =>
    cases coordinates with
    | nil => simp at hlength
    | cons index coordinates =>
      cases increments with
      | nil =>
        cases h
        simp
      | cons increment increments =>
        obtain ⟨-, hrefused⟩ | ⟨-, -, fault, hfault⟩ | ⟨-, -, hstep⟩ :=
          offsetFrom_cons_cases dim total extent increment index extents increments coordinates
        · cases hrefused.symm.trans h
        · cases hfault.symm.trans h
        · rw [ih (by simpa using hlength) (hstep.symm.trans h), List.zipWith_cons_cons, List.sum_cons, Nat.add_assoc]

/-- An offset that is computed is the sum of coordinates times increments. -/
theorem place_eq_of_offset {layout : Layout} {coordinates : List Nat} {offset : Nat}
    (h : layout.offset coordinates = .ok offset) :
    coordinates.length = layout.rank ∧ offset = layout.place coordinates := by
  simp only [Layout.offset, bind_eq_ok_iff, liftM_error_eq_ok_iff] at h
  obtain ⟨_, hrank, h⟩ := h
  simp only [ensureRank] at hrank
  split at hrank
  · cases hrank
  · next hlength =>
    have hlength : coordinates.length = layout.rank := by simpa using (Eq.comm.mp (not_not.mp hlength))
    refine ⟨hlength, ?_⟩
    rw [eq_sum_of_offsetFrom (by simpa [rank] using hlength) h, Nat.zero_add]
    rfl

/-- With an increment for each dimension every coordinate is checked against its
    extent. -/
theorem inBounds_of_offsetFrom {dim total offset : Nat} {extents increments coordinates : List Nat}
    (hincrements : increments.length = extents.length) (hlength : coordinates.length = extents.length)
    (h : offsetFrom dim total extents increments coordinates = .ok offset) :
    InBounds coordinates extents := by
  induction extents generalizing dim total increments coordinates with
  | nil =>
    obtain rfl := List.length_eq_zero_iff.mp hlength
    exact .nil
  | cons extent extents ih =>
    obtain ⟨increment, increments, rfl⟩ := List.exists_cons_of_length_eq_add_one hincrements
    obtain ⟨index, coordinates, rfl⟩ := List.exists_cons_of_length_eq_add_one hlength
    obtain ⟨-, hrefused⟩ | ⟨-, -, fault, hfault⟩ | ⟨hlt, -, hstep⟩ :=
      offsetFrom_cons_cases dim total extent increment index extents increments coordinates
    · cases hrefused.symm.trans h
    · cases hfault.symm.trans h
    · exact .cons hlt (ih (by simpa using hincrements) (by simpa using hlength) (hstep.symm.trans h))

/-- Only coordinates in bounds have an offset. -/
theorem inBounds_of_offset {layout : Layout} {coordinates : List Nat} {offset : Nat} (hformed : layout.Formed)
    (h : layout.offset coordinates = .ok offset) : InBounds coordinates layout.extents := by
  have hlength := (place_eq_of_offset h).1
  simp only [Layout.offset, bind_eq_ok_iff, liftM_error_eq_ok_iff] at h
  obtain ⟨_, -, h⟩ := h
  exact inBounds_of_offsetFrom hformed hlength h

/-- Besides an overflow only an index that reaches its extent is refused. -/
theorem offsetFrom_eq_error {dim total : Nat} {extents increments coordinates : List Nat}
    {cause : LayoutError}
    (h : offsetFrom dim total extents increments coordinates = .error (.error cause)) :
    ∃ dim index extent, cause = .indexOutOfBounds dim index extent := by
  induction extents generalizing dim total increments coordinates with
  | nil => cases coordinates <;> cases increments <;> simp [offsetFrom] at h
  | cons extent extents ih =>
    cases coordinates with
    | nil => cases increments <;> simp [offsetFrom] at h
    | cons index coordinates =>
      cases increments with
      | nil => simp [offsetFrom] at h
      | cons increment increments =>
        obtain ⟨-, hrefused⟩ | ⟨-, -, fault, hfault⟩ | ⟨-, -, hstep⟩ :=
          offsetFrom_cons_cases dim total extent increment index extents increments coordinates
        · cases hrefused.symm.trans h
          exact ⟨_, _, _, rfl⟩
        · cases hfault.symm.trans h
        · exact ih (hstep.symm.trans h)

/-- Coordinates outside a layout are refused, unless their sum overflows
    first. -/
theorem offset_of_not_inBounds {layout : Layout} {coordinates : List Nat} (hformed : layout.Formed)
    (hlength : coordinates.length = layout.rank) (h : ¬InBounds coordinates layout.extents) :
    (∃ fault, layout.offset coordinates = .error (.fault fault)) ∨
      ∃ dim index extent, layout.offset coordinates = .error (.error (.indexOutOfBounds dim index extent)) := by
  rw [offset_eq_offsetFrom hlength]
  cases hresult : offsetFrom 0 0 layout.extents layout.increments coordinates with
  | ok offset => exact (h (inBounds_of_offsetFrom hformed hlength hresult)).elim
  | error failure =>
    cases failure with
    | fault fault => exact .inl ⟨fault, rfl⟩
    | error cause =>
      obtain ⟨dim, index, extent, rfl⟩ := offsetFrom_eq_error hresult
      exact .inr ⟨dim, index, extent, rfl⟩

end Layout

end StagedArrays
