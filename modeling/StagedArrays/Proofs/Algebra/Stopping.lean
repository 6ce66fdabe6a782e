import StagedArrays.Proofs.Algebra.InPlace

namespace StagedArrays

/-- Why an operation on two numbers of one type fails: a quotient by zero, or a
    result beyond the limits. -/
inductive BinaryOp.Refuses : BinaryOp → ValueError → Prop where
  | divisionByZero : Refuses div .divisionByZero
  | integerOverflow (op : BinaryOp) : Refuses op (.integerOverflow op)

/-- An integer operation is refused for a divisor of zero, or because its exact
    result lies outside the range. -/
theorem BinaryOp.refuses_of_checked {op : BinaryOp} {low high a b : Int} {cause : ValueError}
    (h : op.checked low high a b = .error cause) : op.Refuses cause := by
  unfold checked at h
  split at h
  · next hdiv =>
    cases h
    exact hdiv.1 ▸ .divisionByZero
  · dsimp only at h
    split at h
    · cases h
    · cases h
      exact .integerOverflow op

/-- Two immediates of one type are refused for reasons of integer arithmetic
    only. Floats are never refused. -/
theorem Numeric.refuses_of_binary {x y : Numeric} {op : BinaryOp} {cause : ValueError} (hdtype : y.dtype = x.dtype)
    (h : x.binary op y = .error cause) : op.Refuses cause := by
  have hchecked {low high a b : Int} {make : Int → Numeric}
      (h : (do return make (← op.checked low high a b) : Except ValueError Numeric) = .error cause) : op.Refuses cause := by
    cases hresult : op.checked low high a b with
    | ok result =>
      rw [hresult] at h
      cases h
    | error other =>
      rw [hresult] at h
      cases h
      exact BinaryOp.refuses_of_checked hresult
  cases x <;> cases y <;> cases hdtype <;> first | exact hchecked h | cases h

namespace InPlace

/-- The operation that combines the elements. A copy combines nothing and never
    fails. -/
def op? : InPlace → Option BinaryOp
  | assign op | assignReversed op => some op
  | copy => none

/-- A source that no replacement reaches before it has been read: an immediate,
    the destination itself, or storage that has no element in common with it. -/
inductive Steady (destination : Value) : Value → Prop where
  | immediate {source : Value} {x : Numeric} (hdata : source.data = .constant x) : Steady destination source
  | same : Steady destination destination
  | apart {source : Value} {ref : HostRef} {offset : Nat} (hdata : source.data = .host ref offset)
      (hcells : ∀ coordinates ∈ Layout.rowMajor source.layout.extents,
        ∀ other ∈ Layout.rowMajor destination.layout.extents, source.cell? coordinates ≠ destination.cell? other) :
      Steady destination source

/-- What has become of the heap when the first elements of a destination have
    been replaced, row-major: each by what it and one of the source gave. The
    others, and everything outside the destination, are as they were. -/
structure ReplacesFirst (f : InPlace) (destination source : Value) (count : Nat) (heap after : Heap) : Prop where
  size_eq : after.buffers.size = heap.buffers.size
  advances : heap.Advances after
  replaced : ∀ coordinates ∈ (Layout.rowMajor destination.layout.extents).take count, ∃ z,
    Elementwise.combineWith heap f.law destination source coordinates = .ok z ∧ destination.peek after coordinates = .ok z
  kept : ∀ coordinates ∈ (Layout.rowMajor destination.layout.extents).drop count,
    destination.peek after coordinates = destination.peek heap coordinates
  others : ∀ ref index, some (ref, index) ∉ (Layout.rowMajor destination.layout.extents).map destination.cell? →
    (after.get ref).get? index = (heap.get ref).get? index

variable {σ : Type} {world : World σ} {f : InPlace} {op : BinaryOp} {destination source : Value} {ref : HostRef}
  {offset : Nat} {heap after : Heap} {visited : List (List Nat)} {coordinates : List Nat}

/-- What an update fails with is what its operation fails with. Copies refuse
    nothing. -/
theorem law_refuses (hop : f.op? = some op) {x y : Numeric} {cause : ValueError} (hdtype : y.dtype = x.dtype)
    (h : f.law x y = .error cause) : op.Refuses cause := by
  cases f with
  | assign =>
    cases hop
    exact Numeric.refuses_of_binary hdtype h
  | assignReversed =>
    cases hop
    exact Numeric.refuses_of_binary hdtype.symm h
  | copy => cases hop

/-- The passes write to the buffer of the destination only, however many of them
    there have been. -/
theorem touches_of_forM_pass (hdestination : destination.Fits world.heap) (hdata : destination.data = .host ref offset)
    (hsource : source.Fits world.heap) (hjoins : f.Joins destination source) (hvisits : Visits destination visited) :
    world.heap.Touches ref ((visited.forM (f.pass destination source)).runFrom world).2.heap := by
  induction visited generalizing world with
  | nil => exact .refl world.heap ref
  | cons coordinates rest ih =>
    obtain ⟨between, hpass, hfailed, hwrites⟩ := exists_runFrom_pass hdestination hdata hsource hjoins
      (hvisits.reads coordinates List.mem_cons_self) (hvisits.inBounds coordinates List.mem_cons_self)
    have hforM : (coordinates :: rest).forM (f.pass (σ := σ) destination source) =
        f.pass destination source coordinates >>= fun _ => rest.forM (f.pass destination source) := rfl
    rw [hforM]
    cases hz : Elementwise.combineWith world.heap f.law destination source coordinates with
    | error failure =>
      rw [hz, hfailed failure hz] at hpass
      rw [Stateful.runFrom_bind_of_error hpass]
      exact .refl world.heap ref
    | ok z =>
      rw [hz] at hpass
      rw [Stateful.runFrom_bind_of_ok hpass]
      have htouches := (hwrites z hz).toTouches
      exact htouches.trans (@ih { world with heap := between } (hdestination.advance htouches.advances)
        (hsource.advance htouches.advances) (hvisits.sublist (List.sublist_cons_self coordinates rest)))

/-- A view of storage that exists has few enough coordinates for each to be read
    as itself. -/
theorem visits_rowMajor_of_signed (hdestination : destination.Fits heap) (hdata : destination.data = .host ref offset)
    (hsigned : Word.Signed (heap.get ref).length) (hinjective : destination.layout.Injective) :
    Visits destination (Layout.rowMajor destination.layout.extents) := by
  obtain ⟨-, size, hsize, -, hle⟩ := hdestination.sound.host hdata
  have hcount : Word.Signed destination.layout.extents.prod :=
    hsigned.mono (Nat.le_trans (hinjective.prod_le hsize) (Nat.le_trans (Nat.le_add_left size offset) hle))
  exact ⟨fun _ => Layout.indices_of_signed_prod hcount, fun _ => Layout.mem_rowMajor.mp, hinjective⟩

/-- An element of a steady source lies at no earlier element of the
    destination. -/
theorem Steady.cell?_notMem (h : Steady destination source) (hdata : destination.data = .host ref offset)
    (hsource : source.Fits heap) (hjoins : source.Joins destination)
    (hvisits : Visits destination (visited ++ [coordinates])) : source.cell? coordinates ∉ visited.map destination.cell? := by
  intro hmem
  obtain ⟨earlier, hearlier, heq⟩ := List.mem_map.mp hmem
  cases h with
  | immediate hconstant =>
    rw [Value.cell?_host hdata, Value.cell?, Value.host?, hconstant] at heq
    cases heq
  | same => exact cell?_ne hdata hvisits earlier hearlier heq
  | apart hhost hcells =>
    have hin (other : List Nat) (hother : other ∈ visited ++ [coordinates]) :
        other ∈ Layout.rowMajor destination.layout.extents := Layout.mem_rowMajor.mpr (hvisits.inBounds other hother)
    have hearlier := hin earlier (List.mem_append_left _ hearlier)
    have hlast := hin coordinates (List.mem_append_right _ List.mem_cons_self)
    rcases hjoins.2 with hrank | hextents
    · -- the one element of a scalar is found at any coordinates
      have hscalar : source.cell? coordinates = source.cell? [] := by
        rw [Value.cell?_host hhost, Value.cell?_host hhost, Value.place_of_rank_zero hsource.sound hrank,
          Value.place_of_rank_zero hsource.sound hrank]
      refine hcells [] ?_ earlier hearlier (hscalar.symm.trans heq.symm)
      rw [List.length_eq_zero_iff.mp hrank]
      exact List.mem_cons_self
    · exact hcells coordinates (hextents ▸ hlast) earlier hearlier heq.symm

/-- Where some elements of the destination are all that has changed, both values
    hold the same at other coordinates. -/
theorem Steady.peek_congr (h : Steady destination source) (hdestination : destination.Fits heap)
    (hdata : destination.data = .host ref offset) (hsource : source.Fits heap) (hjoins : source.Joins destination)
    (hvisits : Visits destination (visited ++ [coordinates])) (hadvances : heap.Advances after)
    (hothers : ∀ ref index, some (ref, index) ∉ visited.map destination.cell? →
      (after.get ref).get? index = (heap.get ref).get? index) :
    destination.peek after coordinates = destination.peek heap coordinates ∧
      source.peekSource after coordinates = source.peekSource heap coordinates := by
  have hmem : coordinates ∈ visited ++ [coordinates] := List.mem_append_right _ List.mem_cons_self
  have hindices := hvisits.reads coordinates hmem
  have hin := hvisits.inBounds coordinates hmem
  have hshape : source.rank = 0 ∨ Layout.InBounds coordinates source.layout.extents := by
    refine hjoins.2.imp_right fun hextents => ?_
    rw [hextents]
    exact hin
  constructor
  · refine hdestination.peek_congr_cell hadvances hdata hindices hin fun other index hcell => hothers other index ?_
    rw [← hcell]
    exact Steady.same.cell?_notMem hdata hdestination ⟨rfl, .inr rfl⟩ hvisits
  · refine hsource.peekSource_congr_cell hadvances hindices hshape fun other index hcell => hothers other index ?_
    rw [← hcell]
    exact h.cell?_notMem hdata hsource hjoins hvisits

/-- A steady source of the right extents has an element wherever the destination
    has one. -/
theorem Steady.exists_peekSource (h : Steady destination source) (hdata : destination.data = .host ref offset)
    (hsource : source.Fits heap) (hjoins : source.Joins destination)
    (hindices : Scalar.indices coordinates = .ok coordinates)
    (hin : Layout.InBounds coordinates destination.layout.extents) :
    ∃ y, source.peekSource heap coordinates = .ok y ∧ y.dtype = destination.dtype := by
  have hheld {y : Numeric} (hrank : source.rank = 0) (hy : source.held heap = .ok y) :
      source.peekSource heap coordinates = .ok y ∧ y.dtype = destination.dtype := by
    refine ⟨?_, (Value.dtype_of_peek hsource.sound ((Value.peek_nil hsource.sound hrank).trans hy)).trans hjoins.1⟩
    rw [Value.peekSource, Value.sourceAt, if_pos hrank]
    exact hy
  have hhost {ref : HostRef} {offset : Nat} (hdata : source.data = .host ref offset) :
      ∃ y, source.peekSource heap coordinates = .ok y ∧ y.dtype = destination.dtype := by
    rcases hjoins.2 with hrank | hextents
    · have hnil : Layout.InBounds [] source.layout.extents := by
        rw [List.length_eq_zero_iff.mp hrank]
        exact .nil
      obtain ⟨y, hy, -⟩ := hsource.sound.exists_peek hdata rfl hnil
      rw [Value.peek_nil hsource.sound hrank] at hy
      exact ⟨y, hheld hrank hy⟩
    · obtain ⟨y, hy, -⟩ := hsource.sound.exists_peek hdata hindices (hextents ▸ hin)
      refine ⟨y, ?_, (Value.dtype_of_peek hsource.sound hy).trans hjoins.1⟩
      rw [Value.peekSource_eq_peek hsource.sound (hextents ▸ hin), hy]
  cases h with
  | @immediate _ x hconstant =>
    obtain ⟨-, hrank⟩ := hsource.constant_eq hconstant
    refine ⟨x, hheld hrank ?_⟩
    rw [Value.held, (Layout.ensureRank_eq_ok (u := ())).mpr hrank, hconstant]
    rfl
  | same => exact hhost hdata
  | apart hhost' => exact hhost hhost'

/-- What has been replaced before a steady source could be read is what was
    there at first. -/
theorem Replaces.first (h : f.Replaces destination source visited heap after) (hdestination : destination.Fits heap)
    (hdata : destination.data = .host ref offset) (hsource : source.Fits heap) (hsteady : Steady destination source)
    (hjoins : source.Joins destination) (hvisits : Visits destination (Layout.rowMajor destination.layout.extents))
    (htouches : heap.Touches ref after) {rest : List (List Nat)}
    (hsplit : Layout.rowMajor destination.layout.extents = visited ++ rest) :
    f.ReplacesFirst destination source visited.length heap after := by
  rw [hsplit] at hvisits
  refine ⟨htouches.size_eq, h.advances, fun coordinates hmem => ?_, fun coordinates hmem => ?_, fun other index hnot => ?_⟩
  · rw [hsplit, List.take_left] at hmem
    obtain ⟨k, hk, rfl⟩ := List.getElem_of_mem hmem
    obtain ⟨x, y, z, hx, hy, hlaw, hz⟩ := h.replaced k hk
    have hprefix : (visited.take k ++ [visited[k]]).Sublist (visited ++ rest) := by
      rw [List.take_append_getElem]
      exact (List.take_sublist _ _).trans (List.sublist_append_left visited rest)
    rw [if_neg (hsteady.cell?_notMem hdata hsource hjoins (hvisits.sublist hprefix))] at hy
    refine ⟨z, ?_, hz⟩
    rw [Elementwise.combineWith, hx, ok_bind, hy, ok_bind, hlaw]
    rfl
  · rw [hsplit, List.drop_left] at hmem
    have hprefix : (visited ++ [coordinates]).Sublist (visited ++ rest) :=
      (List.Sublist.refl visited).append (List.singleton_sublist.mpr hmem)
    exact (hsteady.peek_congr hdestination hdata hsource hjoins (hvisits.sublist hprefix) h.advances h.others).1
  · refine h.others other index fun hmem => hnot ?_
    rw [hsplit, List.map_append]
    exact List.mem_append_left _ hmem

/-- An update of host storage in place either is refused, with nothing changed,
    or replaces the elements row-major, up to the first that the operation fails
    for, with the error of the operation. That element, those after it and
    everything outside the destination stay. The source is an immediate, the
    destination itself or storage apart from it; no allocation has more elements
    than a signed word counts. -/
theorem replacesFirst_of_run (hop : f.op? = some op) (hcontext : world.contexts.head? = some .compute)
    (hdestination : destination.Fits world.heap) (hdata : destination.data = .host ref offset)
    (hsigned : Word.Signed (world.heap.get ref).length) (hinjective : destination.layout.Injective)
    (hsource : source.Fits world.heap) (hsteady : Steady destination source) :
    ∃ outcome heap, (f.run destination source).runFrom world = (outcome, { world with heap }) ∧
      ((∃ failure, destination.compareOperands source = .error failure ∧ outcome = .error failure ∧ heap = world.heap) ∨
      (source.Joins destination ∧ outcome = .ok () ∧
        f.ReplacesFirst destination source (Layout.rowMajor destination.layout.extents).length world.heap heap) ∨
      (source.Joins destination ∧ ∃ earlier coordinates later x y cause,
        Layout.rowMajor destination.layout.extents = earlier ++ coordinates :: later ∧
        destination.peek world.heap coordinates = .ok x ∧ source.peekSource world.heap coordinates = .ok y ∧
        f.law x y = .error cause ∧ op.Refuses cause ∧ outcome = .error (.error cause) ∧
        f.ReplacesFirst destination source earlier.length world.heap heap)) := by
  cases hcompare : destination.compareOperands source with
  | error failure =>
    refine ⟨.error failure, world.heap, ?_, .inl ⟨failure, rfl, rfl, rfl⟩⟩
    cases f with
    | assign | assignReversed => exact Elementwise.runFrom_update_of_compareOperands hcompare
    | copy => cases hop
  | ok u =>
    have hjoins := Value.joins_of_compareOperands hcompare
    have hfits : f.Joins destination source := by
      cases f with
      | assign | assignReversed => exact hjoins
      | copy => cases hop
    have haddressable : destination.isAddressable = true := by rw [Value.isAddressable, hdata]
    have hvisits := visits_rowMajor_of_signed hdestination hdata hsigned hinjective
    obtain ⟨outcome, heap, done, hrun, hreplaces, hended⟩ := exists_runFrom_forM_pass hdestination hdata hsource hfits
      (Layout.rowMajor destination.layout.extents) (.refl f destination source world.heap) hvisits
    have htouches := touches_of_forM_pass hdestination hdata hsource hfits hvisits
    rw [hrun] at htouches
    have hfirst {rest : List (List Nat)} (hsplit : Layout.rowMajor destination.layout.extents = done ++ rest) :=
      hreplaces.first hdestination hdata hsource hsteady hjoins hvisits htouches hsplit
    refine ⟨outcome, heap, (runFrom_run hcontext haddressable hfits).trans hrun, .inr ?_⟩
    rcases hended with ⟨houtcome, rfl⟩ | ⟨coordinates, later, failure, houtcome, hsplit, hfails⟩
    · exact .inl ⟨hjoins, houtcome, hfirst (List.append_nil _).symm⟩
    · have hmem : coordinates ∈ Layout.rowMajor destination.layout.extents := by simp [hsplit]
      have hindices := hvisits.reads coordinates hmem
      have hin := hvisits.inBounds coordinates hmem
      obtain ⟨x, hx, -⟩ := hdestination.sound.exists_peek hdata hindices hin
      obtain ⟨y, hy, hdtype⟩ := hsteady.exists_peekSource hdata hsource hjoins hindices hin
      have hprefix : (done ++ [coordinates]).Sublist (done ++ coordinates :: later) :=
        (List.Sublist.refl done).append (List.singleton_sublist.mpr List.mem_cons_self)
      obtain ⟨hpeek, hpeekSource⟩ := hsteady.peek_congr hdestination hdata hsource hjoins
        ((hsplit ▸ hvisits).sublist hprefix) hreplaces.advances hreplaces.others
      rw [Elementwise.combineWith, hpeek, hpeekSource, hx, ok_bind, hy, ok_bind] at hfails
      cases hlaw : f.law x y with
      | ok z =>
        rw [hlaw] at hfails
        cases hfails
      | error cause =>
        rw [hlaw] at hfails
        cases hfails
        exact .inr ⟨hjoins, done, coordinates, later, x, y, cause, hsplit, hx, hy, hlaw,
          law_refuses hop (hdtype.trans (Value.dtype_of_peek hdestination.sound hx).symm) hlaw, houtcome, hfirst hsplit⟩

/-- Five numbers, every other one of which belongs to a vector. The one in the
    middle is the greatest there is. -/
def saturated : World Unit where
  heap := ⟨#[⟨.i32, #[.i32 1, .i32 9, .i32 Int32.maxValue, .i32 9, .i32 3], by decide⟩]⟩
  contexts := [.compute]
  client := ()

def everyOther : Value := ⟨.i32, ⟨[3], [2]⟩, .host ⟨0⟩ 0⟩

theorem fits_everyOther : everyOther.Fits saturated.heap := ⟨⟨rfl, rfl⟩, fun ref offset hdata => by cases hdata; decide⟩

/-- One is added to the first number. The second addition overflows, and the
    third is not made. -/
theorem replacesFirst_of_run_saturated :
    (assign .add).op? = some .add ∧ saturated.contexts.head? = some .compute ∧ everyOther.Fits saturated.heap ∧
    Word.Signed (saturated.heap.get ⟨0⟩).length ∧ everyOther.layout.Injective ∧
    (Value.constant (.i32 1)).Fits saturated.heap ∧ Steady everyOther (.constant (.i32 1)) ∧
    ∃ heap, ((assign .add).run everyOther (.constant (.i32 1))).runFrom saturated =
        (.error (.error (.integerOverflow .add)), { saturated with heap }) ∧
      (assign .add).ReplacesFirst everyOther (.constant (.i32 1)) 1 saturated.heap heap := by
  have hsigned : Word.Signed (saturated.heap.get ⟨0⟩).length := Word.signed_iff.mpr (by decide)
  have hfits := Value.fits_constant saturated.heap (.i32 1)
  refine ⟨rfl, rfl, fits_everyOther, hsigned, by decide, hfits, .immediate rfl, ?_⟩
  obtain ⟨outcome, heap, hrun, hended⟩ := replacesFirst_of_run (f := assign .add) rfl rfl fits_everyOther rfl hsigned
    (by decide) hfits (.immediate rfl)
  have hfailed : (((assign .add).run everyOther (.constant (.i32 1))).runFrom saturated).1 =
      .error (.error (.integerOverflow .add)) := by cbv
  rw [hrun] at hfailed
  refine ⟨heap, hrun.trans (by rw [← hfailed]), ?_⟩
  rcases hended with ⟨failure, hfailure, -⟩ | ⟨-, hok, -⟩ |
    ⟨-, earlier, coordinates, later, x, y, cause, hsplit, hx, hy, hlaw, -, -, hfirst⟩
  · cases hfailure
  · cases hok.symm.trans hfailed
  · have hrows : Layout.rowMajor everyOther.layout.extents = [[0], [1], [2]] := by decide
    rw [hrows] at hsplit
    obtain rfl : Numeric.i32 1 = y := Except.ok.inj hy
    obtain _ | ⟨_, _ | ⟨_, _ | ⟨_, rest⟩⟩⟩ := earlier
    · cases hsplit
      obtain rfl : Numeric.i32 1 = x := Except.ok.inj hx
      cases hlaw
    · exact hfirst
    · cases hsplit
      obtain rfl : Numeric.i32 3 = x := Except.ok.inj hx
      cases hlaw
    · simp at hsplit

end InPlace

end StagedArrays
