import Mathlib.Data.List.Forall2
import Mathlib.Logic.Function.Iterate
import StagedArrays.Layout.Odometer
import StagedArrays.Proofs.Stateful

namespace StagedArrays

namespace Layout

/-- The coordinates of a shape as nested counters, the first of them the
    slowest. -/
def rowMajor : List Nat → List (List Nat)
  | [] => [[]]
  | extent :: extents => (List.range extent).flatMap fun index => (rowMajor extents).map (index :: ·)

/-- The coordinates from given ones on, in row-major order. They are what is
    left to visit of a shape. -/
def rowMajorFrom : (extents current : List Nat) → List (List Nat)
  | extent :: extents, index :: current =>
    (rowMajorFrom extents current).map (index :: ·) ++
      (List.range' (index + 1) (extent - (index + 1))).flatMap fun later =>
        (rowMajor extents).map (later :: ·)
  | [], [] => [[]]
  | _, _ => []

/-- Each dimension has a coordinate, and none reaches its extent. A shape
    without dimensions has one list of coordinates in bounds. -/
abbrev InBounds (coordinates extents : List Nat) : Prop := List.Forall₂ (· < ·) coordinates extents

/-- The coordinates in row-major order are those in bounds, all of them and no
    others. -/
theorem mem_rowMajor {coordinates extents : List Nat} :
    coordinates ∈ rowMajor extents ↔ InBounds coordinates extents := by
  induction extents generalizing coordinates with
  | nil => simp [rowMajor, InBounds]
  | cons extent extents ih =>
    cases coordinates with
    | nil => simp [rowMajor, InBounds]
    | cons index rest => simp [rowMajor, InBounds, ih]

/-- There are as many coordinates as the product of the extents. One of zero
    leaves none. -/
theorem length_rowMajor (extents : List Nat) : (rowMajor extents).length = extents.prod := by
  induction extents with
  | nil => rfl
  | cons extent extents ih => simp [rowMajor, List.length_flatMap, ih]

/-- A layout with an extent of zero has no coordinates. It does not matter which
    extent it is. -/
theorem rowMajor_eq_nil_of_zero_mem {extents : List Nat} (h : 0 ∈ extents) : rowMajor extents = [] := by
  induction extents with
  | nil => simp at h
  | cons extent extents ih =>
    rcases List.mem_cons.mp h with rfl | hmem
    · rfl
    · simp [rowMajor, ih hmem]

/-- Where there are coordinates in bounds, no extent is zero. -/
theorem InBounds.zero_notMem {coordinates extents : List Nat} (h : InBounds coordinates extents) :
    0 ∉ extents := by
  induction h with
  | nil => simp
  | cons hlt _ ih =>
    simp only [List.mem_cons, not_or]
    exact ⟨by omega, ih⟩

/-- Counting from zero in every dimension runs through the whole shape. -/
theorem rowMajorFrom_zeros {extents current : List Nat} (hlength : current.length = extents.length)
    (hpositive : 0 ∉ extents) : rowMajorFrom extents (current.map fun _ => 0) = rowMajor extents := by
  induction extents generalizing current with
  | nil =>
    cases current with
    | nil => rfl
    | cons => simp at hlength
  | cons extent extents ih =>
    cases current with
    | nil => simp at hlength
    | cons index current =>
      simp only [List.mem_cons, not_or] at hpositive
      have hrest := ih (by simpa using hlength) hpositive.2
      obtain ⟨count, rfl⟩ := Nat.exists_eq_succ_of_ne_zero (Ne.symm hpositive.1)
      simp only [List.map_cons, rowMajorFrom, hrest, rowMajor, List.range_eq_range', List.range'_succ,
        List.flatMap_cons]
      simp

/-- After the coordinates an odometer stands at come those that follow its
    successor. -/
theorem rowMajorFrom_eq_cons {extents current : List Nat} (h : InBounds current extents) :
    rowMajorFrom extents current = current ::
      (match Odometer.successor extents current with
        | some next => rowMajorFrom extents next
        | none => []) := by
  induction h with
  | nil => rfl
  | @cons index extent current extents hlt htail ih =>
    simp only [rowMajorFrom, Odometer.successor, ih]
    cases hsucc : Odometer.successor extents current with
    | some next => simp [rowMajorFrom]
    | none =>
      simp only [List.map_cons, List.map_nil, List.cons_append, List.nil_append, List.cons.injEq, true_and]
      by_cases hroom : index + 1 < extent
      · have hzeros := rowMajorFrom_zeros (List.Forall₂.length_eq htail)
          (InBounds.zero_notMem htail)
        obtain ⟨count, hcount⟩ : ∃ count, extent - (index + 1) = count + 1 := ⟨extent - (index + 2), by omega⟩
        have hcount' : extent - (index + 1 + 1) = count := by omega
        rw [if_pos hroom, hcount, List.range'_succ, List.flatMap_cons]
        simp only [rowMajorFrom, hzeros, hcount']
      · have hnone : extent - (index + 1) = 0 := by omega
        rw [if_neg hroom, hnone]
        rfl

/-- The successor of coordinates stays inside the shape. -/
theorem inBounds_successor {extents current next : List Nat} (h : InBounds current extents)
    (hnext : Odometer.successor extents current = some next) : InBounds next extents := by
  induction h generalizing next with
  | nil => simp [Odometer.successor] at hnext
  | @cons index extent current extents hlt htail ih =>
    simp only [Odometer.successor] at hnext
    cases hsucc : Odometer.successor extents current with
    | some rest =>
      simp only [hsucc, Option.some.injEq] at hnext
      subst hnext
      exact .cons hlt (ih hsucc)
    | none =>
      simp only [hsucc] at hnext
      split at hnext
      · next hroom =>
        cases hnext
        refine .cons hroom ?_
        clear ih hsucc
        induction htail with
        | nil => exact .nil
        | cons hpos _ ihtail => exact .cons (Nat.zero_lt_of_lt hpos) ihtail
      · cases hnext

end Layout

namespace Odometer

/-- What the iterator gives in a number of steps are the first of the
    coordinates that come from its current one on. -/
theorem take_eq (extents current : List Nat) (h : Layout.InBounds current extents) (count : Nat) :
    take count ⟨extents, some current⟩ = (Layout.rowMajorFrom extents current).take count := by
  induction count generalizing current with
  | zero => rfl
  | succ count ih =>
    rw [Layout.rowMajorFrom_eq_cons h]
    simp only [take, step, Option.map_some, List.take_succ_cons, List.cons.injEq, true_and]
    cases hsucc : successor extents current with
    | some next => exact ih next (Layout.inBounds_successor h hsucc)
    | none => cases count <;> simp [take, step]

/-- A loop over the iterator runs its body for just these coordinates, in this
    order, and stops where the body fails. -/
theorem visit_eq {ε σ : Type} (body : List Nat → Stateful ε σ Unit) (extents current : List Nat)
    (h : Layout.InBounds current extents) (count : Nat) :
    visit body count ⟨extents, some current⟩ =
      ((Layout.rowMajorFrom extents current).take count).forM body := by
  induction count generalizing current with
  | zero => rfl
  | succ count ih =>
    rw [Layout.rowMajorFrom_eq_cons h]
    simp only [visit, step, Option.map_some, List.take_succ_cons, List.forM]
    cases hsucc : successor extents current with
    | some next => simp only [ih next (Layout.inBounds_successor h hsucc)]
    | none => cases count <;> simp [visit, step]

end Odometer

namespace Layout

/-- The iterator starts inside the bounds unless an extent is zero. In that case
    it has ended before it begins. -/
theorem inBounds_zeros {extents : List Nat} (h : 0 ∉ extents) : InBounds (extents.map fun _ => 0) extents := by
  induction extents with
  | nil => exact .nil
  | cons extent extents ih =>
    simp only [List.mem_cons, not_or] at h
    exact .cons (Nat.pos_of_ne_zero (Ne.symm h.1)) (ih h.2)

theorem coordinateCount_eq (layout : Layout) : layout.coordinateCount = (rowMajor layout.extents).length := by
  rw [length_rowMajor, List.prod_eq_foldl]
  rfl

/-- The odometer yields the coordinates of a shape as nested counters do. So
    both may be used for one another. -/
theorem coordinates_eq (layout : Layout) : layout.coordinates = rowMajor layout.extents := by
  unfold coordinates firstCoordinates Odometer.start
  by_cases hzero : 0 ∈ layout.extents
  · rw [if_pos hzero, rowMajor_eq_nil_of_zero_mem hzero]
    cases layout.coordinateCount <;> rfl
  · rw [if_neg hzero, Odometer.take_eq _ _ (inBounds_zeros hzero), rowMajorFrom_zeros rfl hzero,
      coordinateCount_eq, List.take_length]

/-- Exactly the coordinates below the extents are yielded. Whether the offsets
    can be computed plays no part in it. -/
theorem mem_coordinates {layout : Layout} {coordinates : List Nat} :
    coordinates ∈ layout.coordinates ↔ InBounds coordinates layout.extents := by
  rw [coordinates_eq, mem_rowMajor]

/-- The loop over a layout is the loop over its coordinates in row-major
    order. -/
theorem forCoordinates_eq {ε σ : Type} (layout : Layout) (body : List Nat → Stateful ε σ Unit) :
    layout.forCoordinates body = (rowMajor layout.extents).forM body := by
  unfold forCoordinates Odometer.start
  by_cases hzero : 0 ∈ layout.extents
  · rw [if_pos hzero, rowMajor_eq_nil_of_zero_mem hzero]
    cases layout.coordinateCount <;> rfl
  · rw [if_neg hzero, Odometer.visit_eq _ _ _ (inBounds_zeros hzero), rowMajorFrom_zeros rfl hzero,
      coordinateCount_eq, List.take_length]

end Layout

namespace Layout

/-- Row-major order is the lexicographic order of coordinates, and it is
    strict. -/
theorem pairwise_rowMajor (extents : List Nat) : (rowMajor extents).Pairwise (List.Lex (· < ·)) := by
  induction extents with
  | nil => exact List.pairwise_singleton _ _
  | cons extent extents ih =>
    rw [rowMajor, List.pairwise_flatMap]
    constructor
    · intro index _
      rw [List.pairwise_map]
      exact ih.imp .cons
    · apply List.pairwise_lt_range.imp
      intro index later hlt coordinates hmem others hmem'
      obtain ⟨rest, -, rfl⟩ := List.mem_map.mp hmem
      obtain ⟨rest', -, rfl⟩ := List.mem_map.mp hmem'
      exact .rel hlt

end Layout

namespace Odometer

/-- The odometer once it has been asked for coordinates. One that has run out
    stays as it is. -/
def advanced (odometer : Odometer) : Odometer := (odometer.step.map Prod.snd).getD odometer

/-- The coordinates that an odometer hands out when it is asked once more. There
    are none once it has ended. -/
def handed (odometer : Odometer) : Option (List Nat) := odometer.step.map Prod.fst

/-- An odometer that has ended hands out nothing more. It stays so however often
    it is asked. -/
theorem handed_iterate_of_ended (extents : List Nat) (count : Nat) : (advanced^[count] ⟨extents, none⟩).handed = none := by
  induction count with
  | zero => rfl
  | succ count ih => exact ih

/-- By induction on how often it has been asked: what is left are the
    coordinates from those on that it stands at. -/
theorem handed_iterate {extents current : List Nat} (h : Layout.InBounds current extents) (count : Nat) :
    (advanced^[count] ⟨extents, some current⟩).handed = (Layout.rowMajorFrom extents current)[count]? := by
  induction count generalizing current with
  | zero =>
    rw [Layout.rowMajorFrom_eq_cons h]
    rfl
  | succ count ih =>
    have hstep : advanced ⟨extents, some current⟩ = ⟨extents, successor extents current⟩ := rfl
    rw [Function.iterate_succ_apply, hstep, Layout.rowMajorFrom_eq_cons h, List.getElem?_cons_succ]
    cases hsucc : successor extents current with
    | none => exact handed_iterate_of_ended extents count
    | some next => exact ih (Layout.inBounds_successor h hsucc)

/-- An odometer hands out the coordinates of its shape in order, and none from
    then on. -/
theorem handed_iterate_start (layout : Layout) (count : Nat) :
    (advanced^[count] (start layout.extents)).handed = layout.coordinates[count]? := by
  rw [Layout.coordinates_eq, start]
  by_cases hzero : 0 ∈ layout.extents
  · rw [if_pos hzero, Layout.rowMajor_eq_nil_of_zero_mem hzero]
    exact handed_iterate_of_ended layout.extents count
  · rw [if_neg hzero, handed_iterate (Layout.inBounds_zeros hzero), Layout.rowMajorFrom_zeros rfl hzero]

end Odometer

namespace Stateful

variable {ε σ : Type}

/-- A counted loop goes through consecutive numbers. By induction on the
    count. -/
theorem repeatFrom_eq (body : Nat → Stateful ε σ Unit) (count first : Nat) :
    repeatFrom body count first = (List.range' first count).forM body := by
  induction count generalizing first with
  | zero => rfl
  | succ count ih => simp only [repeatFrom, ih, List.range'_succ, List.forM]

/-- A loop over two lists is one loop after the other. If the first fails, the
    second does not begin. -/
theorem forM_append {α : Type} (body : α → Stateful ε σ Unit) (xs ys : List α) :
    (xs ++ ys).forM body = xs.forM body >>= fun _ => ys.forM body := by
  induction xs with
  | nil => simp [List.forM]
  | cons x xs ih => simp only [List.cons_append, List.forM, ih, bind_assoc]

/-- A loop over lists of lists is a nest of two loops. By induction on the outer
    list. -/
theorem forM_flatMap {α β : Type} (body : β → Stateful ε σ Unit) (f : α → List β) (xs : List α) :
    (xs.flatMap f).forM body = xs.forM fun x => (f x).forM body := by
  induction xs with
  | nil => rfl
  | cons x xs ih => simp only [List.flatMap_cons, forM_append, ih, List.forM]

theorem forM_map {α β : Type} (body : β → Stateful ε σ Unit) (f : α → β) (xs : List α) :
    (xs.map f).forM body = xs.forM fun x => body (f x) := by
  induction xs with
  | nil => rfl
  | cons x xs ih => simp only [List.map_cons, List.forM, ih]

/-- A shape is walked through by one counted loop per dimension. The outermost
    loop is the one of the first dimension. -/
theorem forM_rowMajor_cons (body : List Nat → Stateful ε σ Unit) (extent : Nat) (extents : List Nat) :
    (Layout.rowMajor (extent :: extents)).forM body =
      repeatFrom (fun index => (Layout.rowMajor extents).forM fun rest => body (index :: rest)) extent 0 := by
  simp only [Layout.rowMajor, forM_flatMap, forM_map, repeatFrom_eq, List.range_eq_range']

end Stateful

end StagedArrays
