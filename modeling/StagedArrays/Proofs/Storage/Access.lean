import StagedArrays.Proofs.Context
import StagedArrays.Proofs.Layout.Offset
import StagedArrays.Proofs.Storage.Fits

namespace StagedArrays

open Layout (InBounds)

/-- A number can be read as an index if it is an integer that is not
    negative. -/
theorem Numeric.asIndex_eq_ok_iff {x : Numeric} {index : Nat} :
    x.asIndex = .ok index ↔ x.toInt? = some (index : Int) := by
  unfold asIndex toIndex?
  cases x.toInt? with
  | none => simp
  | some n =>
    by_cases hn : 0 ≤ n
    · simp [hn]
      omega
    · simp [hn]
      omega

namespace Scalar

variable {heap : Heap} {immediates : List Numeric} {indices : List Nat}

theorem reads_ofNumeric {s : Scalar} (h : s ∈ immediates.map ofNumeric) : ∃ x, s.value.Reads heap x := by
  obtain ⟨x, -, rfl⟩ := List.mem_map.mp h
  exact ⟨x, Value.reads_constant rfl rfl⟩

/-- Immediates lead to the coordinates that they are, where they are integers
    and none is negative. -/
theorem points_ofNumeric_iff :
    List.Forall₂ (Points heap) (immediates.map ofNumeric) indices ↔
      List.Forall₂ (fun x (index : Nat) => x.toInt? = some (index : Int)) immediates indices := by
  have hpoints (x : Numeric) (index : Nat) : Points heap (ofNumeric x) index ↔ x.toInt? = some (index : Int) := by
    rw [← Numeric.asIndex_eq_ok_iff]
    have hx : (ofNumeric x).value.Reads heap x := Value.reads_constant rfl rfl
    constructor
    · rintro ⟨y, hy, hindex⟩
      rwa [hx.unique hy]
    · exact fun hindex => ⟨x, hx, hindex⟩
  simp only [List.forall₂_map_left_iff, hpoints]

end Scalar

namespace Value

variable {heap : Heap} {value : Value} {ref : HostRef} {offset : Nat} {scalars : List Scalar}

/-- Arithmetic on coordinates begins only when there are as many as dimensions
    and all have been read. -/
theorem runFrom_element_cases (hdata : value.data = .host ref offset)
    (hreads : ∀ s ∈ scalars, ∃ x, s.value.Reads heap x) :
    (∃ indices, List.Forall₂ (Scalar.Points heap) scalars indices ∧ indices.length = value.layout.rank ∧
      (Direct.element value scalars).runFrom heap =
        ((do
          let place ← Word.add offset (← value.layout.offset indices)
          make heap value.dtype .scalar (.host ref place) : Outcome Value), heap)) ∨
    ∃ cause, (Direct.element value scalars).runFrom heap = (.error (.error cause), heap) ∧
      ∀ indices, List.Forall₂ (Scalar.Points heap) scalars indices → indices.length ≠ value.layout.rank := by
  by_cases hrank : value.layout.rank = scalars.length
  · rcases Scalar.readIndices_of_reads hreads with ⟨indices, hindices, hpoints⟩ | ⟨x, hrefused, hnone⟩
    · exact .inl ⟨indices, hpoints, hpoints.length_eq.symm.trans hrank.symm,
        Direct.runFrom_element_host hdata hrank hindices⟩
    · exact .inr ⟨_, Direct.runFrom_element_of_error hrank hrefused, fun indices hpoints => (hnone indices hpoints).elim⟩
  · refine .inr ⟨.layout (.rankMismatch scalars.length value.layout.rank), ?_, fun indices hpoints hlength => ?_⟩
    · simp only [Direct.element, Layout.ensureRank, if_pos hrank]
      rfl
    · exact hrank (hlength.symm.trans hpoints.length_eq.symm)

theorem element_state (hdata : value.data = .host ref offset) (hreads : ∀ s ∈ scalars, ∃ x, s.value.Reads heap x) :
    ((Direct.element value scalars).runFrom heap).2 = heap := by
  rcases runFrom_element_cases hdata hreads with ⟨indices, -, -, hrun⟩ | ⟨cause, hrun, -⟩ <;> rw [hrun]

namespace Sound

/-- An access succeeds with the element that its coordinates lead to, and with
    nothing else. -/
theorem element_eq_ok_iff (h : value.Sound heap) (hdata : value.data = .host ref offset)
    (hreads : ∀ s ∈ scalars, ∃ x, s.value.Reads heap x) {item : Value} :
    ((Direct.element value scalars).runFrom heap).1 = .ok item ↔
      ∃ indices, List.Forall₂ (Scalar.Points heap) scalars indices ∧ InBounds indices value.layout.extents ∧
        item = ⟨value.dtype, .scalar, .host ref (offset + value.layout.place indices)⟩ := by
  rcases runFrom_element_cases hdata hreads with ⟨indices, hpoints, -, hrun⟩ | ⟨cause, hrun, hnone⟩
  · rw [hrun]
    constructor
    · intro hok
      obtain ⟨place, hplace, -⟩ := bind_eq_ok_iff.mp hok
      have hin := Layout.inBounds_of_offset h.formed (liftM_layoutFailure_eq_ok_iff.mp hplace)
      rw [h.placed hdata hin] at hok
      exact ⟨indices, hpoints, hin, (Except.ok.inj hok).symm⟩
    · rintro ⟨others, hothers, hin, rfl⟩
      obtain rfl := Scalar.eq_of_points hpoints hothers
      exact h.placed hdata hin
  · rw [hrun]
    refine iff_of_false (fun hok => by cases hok) ?_
    rintro ⟨indices, hpoints, hin, -⟩
    exact hnone indices hpoints hin.length_eq

/-- An access overflows where the sum of the offset does, and nowhere else. -/
theorem element_eq_fault_iff (h : value.Sound heap) (hdata : value.data = .host ref offset)
    (hreads : ∀ s ∈ scalars, ∃ x, s.value.Reads heap x) :
    (∃ fault, ((Direct.element value scalars).runFrom heap).1 = .error (.fault fault)) ↔
      ∃ indices, List.Forall₂ (Scalar.Points heap) scalars indices ∧ indices.length = value.layout.rank ∧
        value.layout.Overflows indices := by
  rcases runFrom_element_cases hdata hreads with ⟨indices, hpoints, hlength, hrun⟩ | ⟨cause, hrun, hnone⟩
  · rw [hrun]
    have hoffset := Layout.offset_eq_fault_iff h.formed hlength
    constructor
    · rintro ⟨fault, hfault⟩
      refine ⟨indices, hpoints, hlength, hoffset.mp ?_⟩
      cases hplace : value.layout.offset indices with
      | ok place =>
        rw [h.placed hdata (Layout.inBounds_of_offset h.formed hplace)] at hfault
        cases hfault
      | error failure =>
        rw [hplace] at hfault
        cases failure with
        | fault found => exact ⟨found, rfl⟩
        | error cause => cases hfault
    · rintro ⟨others, hothers, -, hoverflows⟩
      obtain rfl := Scalar.eq_of_points hpoints hothers
      obtain ⟨fault, hfault⟩ := hoffset.mpr hoverflows
      rw [hfault]
      exact ⟨fault, rfl⟩
  · rw [hrun]
    refine iff_of_false (fun ⟨fault, hfault⟩ => by cases hfault) ?_
    rintro ⟨indices, hpoints, hlength, -⟩
    exact hnone indices hpoints hlength

end Sound

/-- Direct access to an element by immediates. It succeeds exactly where there
    is an immediate for each dimension, and each is an integer that is not
    negative and below its extent; then the item is the scalar view of that
    element. It ends in an overflow exactly where the immediates in front, all
    inside, already lead beyond the reach of a word, which no layout allows
    without an empty dimension; otherwise it is refused. Nothing is changed. -/
theorem Sound.element_exact {σ : Type} {world : World σ} (h : value.Sound world.heap)
    (hdata : value.data = .host ref offset) (immediates : List Numeric) :
    let run := (Context.compute.element value (immediates.map .ofNumeric) : Action σ Value).runFrom world
    run.2 = world ∧
    (∀ item, run.1 = .ok item ↔
      ∃ indices, List.Forall₂ (fun x (index : Nat) => x.toInt? = some (index : Int)) immediates indices ∧
        InBounds indices value.layout.extents ∧
        item = ⟨value.dtype, .scalar, .host ref (offset + value.layout.place indices)⟩) ∧
    ((∃ fault, run.1 = .error (.fault fault)) ↔
      ∃ indices, List.Forall₂ (fun x (index : Nat) => x.toInt? = some (index : Int)) immediates indices ∧
        indices.length = value.layout.rank ∧ value.layout.Overflows indices) ∧
    (0 ∉ value.layout.extents → ∀ fault, run.1 ≠ .error (.fault fault)) := by
  have hreads : ∀ s ∈ immediates.map Scalar.ofNumeric, ∃ x, s.value.Reads world.heap x :=
    fun s hs => Scalar.reads_ofNumeric hs
  have hfault := h.element_eq_fault_iff hdata hreads
  simp only [Context.element, Action.runFrom_onHeap, ← @Scalar.points_ofNumeric_iff world.heap]
  refine ⟨?_, fun item => h.element_eq_ok_iff hdata hreads, hfault, fun hpositive fault hrun => ?_⟩
  · rw [element_state hdata hreads]
  · obtain ⟨-, size, hsize, -⟩ := h.host hdata
    obtain ⟨indices, -, -, hoverflows⟩ := hfault.mp ⟨fault, hrun⟩
    exact Layout.not_overflows hsize hpositive indices hoverflows

/-- Eight numbers on the host. -/
def octet : World Unit where
  heap := ⟨#[.zeros .i32 8]⟩
  client := ()

/-- Every fourth of them and the next two, after the first one. -/
def windows : Value := ⟨.i32, ⟨[2, 3], [4, 1]⟩, .host ⟨0⟩ 1⟩

/-- An element of overlapping windows over a buffer of eight, with coordinates
    of two different types. -/
theorem element_exact_windows :
    windows.Sound octet.heap ∧
      ((Context.compute.element windows [.ofNumeric (.i64 1), .ofNumeric (.i32 2)]).runFrom octet).1 =
        .ok ⟨.i32, .scalar, .host ⟨0⟩ 7⟩ := by
  have hsound : windows.Sound octet.heap := ⟨rfl, rfl⟩
  have hexact := (@Sound.element_exact windows ⟨0⟩ 1 Unit octet hsound rfl [.i64 1, .i32 2]).2.1
  refine ⟨hsound, (hexact _).mpr ⟨[1, 2], ?_, ?_, rfl⟩⟩
  · exact .cons (by decide) (.cons (by decide) .nil)
  · decide

/-- Three rows without columns, so far apart that no word counts the distance of
    the last one. They span nothing, and so they fit. -/
def hollow : Value := ⟨.i32, ⟨[3, 0], [2 ^ 63, 1]⟩, .host ⟨0⟩ 8⟩

/-- An access to a value that fits its storage overflows before it comes to the
    coordinate that would be refused. -/
theorem hollow_overflows :
    hollow.Sound octet.heap ∧
      ((Context.compute.element hollow [.ofNumeric (.i64 2), .ofNumeric (.i64 0)]).runFrom octet).1 =
        .error (.fault .multiplyOverflow) :=
  ⟨⟨rfl, rfl⟩, by rfl⟩

end Value

end StagedArrays
