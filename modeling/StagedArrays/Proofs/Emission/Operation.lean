import StagedArrays.Proofs.Emission.Index

namespace StagedArrays

namespace Link

/-- An immediate or register of the recording stands for the immediate it
    holds. -/
theorem Holds.matches_valueOf {l : Link} {operand : Operand} {x : Numeric} (h : l.Holds operand x) :
    l.Matches (Emit.valueOf x.dtype operand) (.constant x) := by
  cases operand with
  | constant y =>
    rw [holds_constant] at h
    subst h
    exact ⟨rfl, rfl, rfl, rfl, rfl, rfl⟩
  | register id => exact ⟨rfl, rfl, rfl, h, rfl, rfl⟩

theorem readable_constant (l : Link) (x : Numeric) : l.Readable (.constant x) := by
  intro cell hmem
  cases hmem

theorem matches_constant (l : Link) (x : Numeric) : l.Matches (.constant x) (.constant x) :=
  ⟨rfl, rfl, rfl, rfl, rfl, rfl⟩

/-- A rank-0 value of the direct execution that stands opposite a recorded one
    can be read. -/
theorem Matches.exists_reads {l : Link} {recorded direct : Value} (h : l.Matches recorded direct)
    (hrank : direct.layout.rank = 0) : ∃ x, direct.Reads l.direct x := by
  obtain ⟨-, -, -, hdata⟩ := h
  obtain ⟨dtype, layout, data⟩ := direct
  cases data with
  | constant x => exact ⟨x, Value.reads_constant hrank rfl⟩
  | host ref offset =>
    cases hrecorded : recorded.data <;> rw [hrecorded] at hdata <;> simp only [Link.DataMatches] at hdata
    obtain ⟨-, -, -, -, -, size, -, -, -, hsize, hle, -⟩ := hdata
    cases (Layout.memorySize_of_rank_zero hrank).symm.trans hsize
    obtain ⟨x, hx, -⟩ := @HostBuffer.exists_get? (l.direct.get ref) offset (by omega)
    exact ⟨x, Value.reads_host hrank rfl hx⟩
  | buffer | register => cases hrecorded : recorded.data <;> rw [hrecorded] at hdata <;> cases hdata

end Link

namespace Comparison

variable {l : Link}

/-- Immediates that were checked by the recording lie inside. So an element at
    immediates is never refused directly. -/
theorem inBounds_of_constants {coordinates directs : List Scalar} {extents : List Nat}
    (hchecked : List.Forall₂ (fun (coordinate : Scalar) extent => ∀ x,
      coordinate.value.data = .constant x → ∃ index, x.asIndex = .ok index ∧ index < extent) coordinates extents)
    (hmatches : List.Forall₂ (fun coordinate direct : Scalar =>
      l.Matches coordinate.value direct.value ∧ l.Readable direct.value) coordinates directs)
    (hconstants : ∀ coordinate ∈ coordinates, coordinate.value.asConstant? ≠ none) :
    ∃ indices, List.Forall₂ (Scalar.Points l.direct) directs indices ∧ Layout.InBounds indices extents := by
  induction hchecked generalizing directs with
  | nil =>
    cases hmatches
    exact ⟨[], .nil, .nil⟩
  | cons hfirst _ ih =>
    obtain ⟨direct, directs, ⟨hmatch, -⟩, htail, rfl⟩ := List.forall₂_cons_left_iff.mp hmatches
    obtain ⟨x, hx⟩ := Option.ne_none_iff_exists'.mp (hconstants _ List.mem_cons_self)
    have hdata := Value.asConstant?_eq_some.mp hx
    obtain ⟨index, hindex, hlt⟩ := hfirst x hdata
    obtain ⟨indices, hpoints, hinBounds⟩ := ih htail fun t ht => hconstants t (List.mem_cons_of_mem _ ht)
    exact ⟨index :: indices, .cons ⟨x, reads_of_matches_constant hmatch hdata, hindex⟩ hpoints,
      .cons hlt hinBounds⟩

/-- Coordinates of the direct execution that stand opposite recorded ones can be
    read. -/
theorem exists_reads_of_forall₂ {coordinates directs : List Scalar}
    (h : List.Forall₂ (fun (coordinate direct : Scalar) =>
      l.Matches coordinate.value direct.value ∧ l.Readable direct.value) coordinates directs) :
    ∀ direct ∈ directs, ∃ x, direct.value.Reads l.direct x := by
  induction h with
  | nil => simp
  | cons hfirst _ ih =>
    intro direct hmem
    rcases List.mem_cons.mp hmem with rfl | hmem
    · exact hfirst.1.exists_reads direct.rank_eq
    · exact ih direct hmem

variable [ArrayLibrary] {c : Comparison} {excused : ValueError → Prop} {builder : FunctionBuilder}

/-- A load in the recording is followed by a load. -/
theorem records_load (recorded : Value) :
    c.Records builder ((Context.emitter c.id).load recorded) fun value f =>
      ∀ l direct, l.At builder → c.Sound l → l.Matches recorded direct → l.Readable direct →
        c.Follows excused l f (Context.compute.load direct)
          fun l' result => l'.Matches value result ∧ l'.Readable result := by
  refine Emits.records (.map ((emits_operand recorded).mono fun operand f h => ?_))
  intro l direct hat hsound hmatches hreadable
  obtain ⟨x, hx, hdtype, hcomputes⟩ := h.2 l direct hat hsound hmatches hreadable
  rw [hmatches.dtype_eq, ← hdtype]
  exact (hcomputes.mono fun l' _ hholds => ⟨hholds.matches_valueOf, l'.readable_constant x⟩).onHeap
    (Direct.runFrom_load hx)

/-- An operation in the recording is followed by the same operation. -/
theorem records_binary (op : BinaryOp) (a b : Value) :
    c.Records builder ((Context.emitter c.id).binary op a b) fun value f =>
      ∀ l a' b', l.At builder → c.Sound l → l.Matches a a' → l.Matches b b' → l.Readable a' →
        l.Readable b' → c.Follows excused l f (Context.compute.binary op a' b')
          fun l' result => l'.Matches value result ∧ l'.Readable result := by
  refine Emits.records (.lift_bind fun _ _ => .bind (emits_operand a) fun x f₁ hx => ?_)
  refine .bind (emits_operand b) fun y f₂ hy => .map ((emits_binaryOperand op x y).mono fun z f₃ hz => ?_)
  intro l a' b' hat hsound ha hb hareadable hbreadable
  obtain ⟨v, hv, hvdtype, hcomputes₁⟩ := hx.2 l a' hat hsound ha hareadable
  obtain ⟨w, hw⟩ := hb.exists_reads (by rw [← hb.layout_eq, hy.1])
  have hrun := Direct.runFrom_binary op hv hw
  have hsecond : ∀ l', l'.direct = l.direct → c.Reaches l f₁ l' →
      c.Computes l' f₂ fun l'' => l''.Holds y w := by
    intro l' hdirect hreaches
    have hkeeps := hreaches.leads.toKeeps
    obtain ⟨w', hw', -, hcomputes⟩ := hy.2 l' b' (hreaches.at_extend hat) hreaches.sound
      (hsound.matches hkeeps hb) (hsound.readable hkeeps hb hbreadable)
    rw [hdirect] at hw'
    rwa [hw.unique hw']
  cases hresult : v.binary op w with
  | error cause =>
    rw [hresult] at hrun
    refine Fails.follows ?_ (Action.runFrom_onHeap_of_error hrun)
    refine hcomputes₁.fails fun l₁ hdirect₁ hreaches₁ hholds₁ => ?_
    refine (hsecond l₁ hdirect₁ hreaches₁).fails fun l₂ hdirect₂ hreaches₂ hholds₂ => ?_
    exact (hz l₂ v w (hreaches₂.at_extend (hreaches₁.at_extend hat)) hreaches₂.sound
      (hreaches₂.leads.holds hholds₁) hholds₂).2 cause hresult
  | ok result =>
    rw [hresult] at hrun
    have hdtype : a.dtype = result.dtype := by
      rw [ha.dtype_eq, ← hvdtype, (Numeric.dtype_of_binary hresult).2]
    rw [hdtype]
    refine Computes.onHeap ?_ hrun
    refine hcomputes₁.bind fun l₁ hdirect₁ _ hreaches₁ hholds₁ => ?_
    refine (hsecond l₁ hdirect₁ hreaches₁).bind fun l₂ hdirect₂ _ hreaches₂ hholds₂ => ?_
    exact ((hz l₂ v w (hreaches₂.at_extend (hreaches₁.at_extend hat)) hreaches₂.sound
      (hreaches₂.leads.holds hholds₁) hholds₂).1 result hresult).mono
        fun l' _ hholds => ⟨hholds.matches_valueOf, l'.readable_constant result⟩

/-- An error of an element is excused where a coordinate that is no immediate in
    the recording lies outside. -/
def Misses (recorded directs : List Scalar) (heap : Heap) (extents : List Nat) (cause : ValueError) : Prop :=
  cause.RefusesCoordinate ∧ (∃ coordinate ∈ recorded, coordinate.value.asConstant? = none) ∧
    ¬∃ indices, List.Forall₂ (Scalar.Points heap) directs indices ∧ Layout.InBounds indices extents

/-- An immediate is its own only element. There is nothing to compute for it. -/
theorem follows_element_of_constant {value direct : Value} {y : Numeric} {coordinates directs : List Scalar}
    (hsound : c.Sound l) (hmatches : l.Matches value direct) (hdata : direct.data = .constant y)
    (hrank : value.layout.rank = coordinates.length)
    (hcoordinates : List.Forall₂ (fun (coordinate direct : Scalar) =>
      l.Matches coordinate.value direct.value ∧ l.Readable direct.value) coordinates directs) :
    c.Follows excused l .empty (Context.compute.element direct directs)
      fun l' item => l'.Matches value item ∧ ∀ cell ∈ item.cells, cell ∈ direct.cells := by
  have hzero : direct.layout.rank = 0 := by
    have h := hmatches.data
    rw [hdata] at h
    cases hvalue : value.data <;> rw [hvalue] at h <;> simp only [Link.DataMatches] at h
    · exact h.2.2
    · exact h.2.2
  rw [hmatches.layout_eq, hzero] at hrank
  obtain rfl := List.length_eq_zero_iff.mp hrank.symm
  cases hcoordinates
  refine Computes.onHeap (.pure hsound ⟨hmatches, fun cell hmem => hmem⟩) ?_
  have hensure : direct.layout.ensureRank ([] : List Scalar).length = .ok () :=
    Layout.ensureRank_eq_ok.mpr hzero
  simp only [Direct.element, hensure, hdata, Stateful.runFrom_bind, Stateful.runFrom_liftM,
    liftM_layoutError_ok, Direct.readIndices, Stateful.runFrom_pure]

/-- Coordinates that do not lead inside a buffer miss it: those that the
    recording has not checked are at fault. -/
theorem follows_element_of_outside {value direct : Value} {ref : HostRef} {offset : Nat} {f : Fragment}
    {coordinates directs : List Scalar} {post : Link → Value → Prop} (hmatches : l.Matches value direct)
    (hdata : direct.data = .host ref offset) (hrank : value.layout.rank = coordinates.length)
    (hchecked : List.Forall₂ (fun (coordinate : Scalar) extent => ∀ x,
      coordinate.value.data = .constant x → ∃ index, x.asIndex = .ok index ∧ index < extent) coordinates value.layout.extents)
    (hcoordinates : List.Forall₂ (fun (coordinate direct : Scalar) =>
      l.Matches coordinate.value direct.value ∧ l.Readable direct.value) coordinates directs)
    (hnone : ¬∃ indices, List.Forall₂ (Scalar.Points l.direct) directs indices ∧
      Layout.InBounds indices direct.layout.extents) :
    c.Follows (Misses coordinates directs l.direct direct.layout.extents) l f (Context.compute.element direct directs) post := by
  rw [hmatches.layout_eq] at hrank hchecked
  obtain ⟨failure, hrun, hcause⟩ := Direct.exists_runFrom_element_of_outside hdata hmatches.formed
    (hrank.trans hcoordinates.length_eq) (exists_reads_of_forall₂ hcoordinates) hnone
  cases failure with
  | fault fault => exact .of_fault (Action.runFrom_onHeap_of_error hrun)
  | error cause =>
    refine .of_excused ⟨hcause cause rfl, ?_, hnone⟩ (Action.runFrom_onHeap_of_error hrun)
    by_contra hall
    push Not at hall
    exact hnone (inBounds_of_constants hchecked hcoordinates hall)

/-- The element at coordinates inside a buffer stands at the place that has been
    recorded for it. -/
theorem follows_element_of_inside {dtype : DType} {layout : Layout} {id : BufferId} {place operand : Operand} {direct : Value}
    {f : Fragment} {directs : List Scalar} {indices : List Nat} (hsound : c.Sound l)
    (hmatches : l.Matches ⟨dtype, layout, .buffer id place⟩ direct) (hrank : layout.rank = directs.length)
    (hcomputes : ∀ base, l.Holds place (.ofIndex base) → Word.Signed (base + layout.place indices) →
      c.Computes l f (·.Holds operand (.ofIndex (base + layout.place indices))))
    (hpoints : List.Forall₂ (Scalar.Points l.direct) directs indices)
    (hin : Layout.InBounds indices layout.extents) :
    c.Follows excused l f (Context.compute.element direct directs)
      fun l' item => l'.Matches ⟨dtype, .scalar, .buffer id operand⟩ item ∧ ∀ cell ∈ item.cells, cell ∈ direct.cells := by
  obtain ⟨rfl, rfl, -, hdata⟩ := hmatches
  cases hdirect : direct.data <;> rw [hdirect] at hdata <;> simp only [Link.DataMatches] at hdata
  next ref offset =>
  obtain ⟨hlt, hbacking, other, base, index, size, hbound, hplace, rfl, hsize, hle, hdtype⟩ := hdata
  have halike := hsound.alike ref other (.inl ⟨id, base, hbacking, hbound⟩)
  have hrun := Direct.runFrom_element_host hdirect hrank (Direct.readIndices_of_points hpoints)
  rw [Direct.element_of_inBounds hdtype hsize (Nat.lt_of_le_of_lt hle halike.signed.lt_bound) hle hin] at hrun
  have hlt' := Layout.place_lt_memorySize hsize hin
  refine Computes.onHeap ((hcomputes index hplace (halike.signed.mono (by omega))).mono fun l' hreaches hholds => ?_) hrun
  have hkeeps := hreaches.leads.toKeeps
  refine ⟨⟨rfl, rfl, rfl, Nat.lt_of_lt_of_le hlt hkeeps.buffers_le, (hkeeps.backing_eq id hlt).trans hbacking, other, base,
    _, 1, ?_, hholds, ?_, rfl, ?_, ?_⟩, ?_⟩
  · rw [hkeeps.buffers_eq, hbound]
  · rw [Nat.add_assoc]
  · rw [hkeeps.length_eq ref halike.direct_lt]
    omega
  · rw [hkeeps.dtype_eq ref halike.direct_lt, hdtype]
  · intro cell hmem
    rw [Value.cells_of_rank_zero rfl rfl, List.mem_singleton] at hmem
    rw [hmem]
    exact Value.mem_cells hdirect hin

/-- An element taken in the recording is followed by the element, unless its
    coordinates miss. -/
theorem records_element (recorded : Value) (coordinates : List Scalar) :
    c.Records builder ((Context.emitter c.id).element recorded coordinates) fun value f =>
      ∀ l direct directs, l.At builder → c.Sound l → l.Matches recorded direct →
        List.Forall₂ (fun (coordinate direct : Scalar) =>
          l.Matches coordinate.value direct.value ∧ l.Readable direct.value) coordinates directs →
          c.Follows (Misses coordinates directs l.direct direct.layout.extents) l f
            (Context.compute.element direct directs)
              fun l' item => l'.Matches value item ∧ ∀ cell ∈ item.cells, cell ∈ direct.cells := by
  refine Emits.records (.lift_bind fun _ hrank => ?_)
  have hrank : recorded.layout.rank = coordinates.length := by simpa using hrank
  obtain ⟨dtype, layout, data⟩ := recorded
  cases data with
  | host ref offset => exact .fail
  | constant x =>
    refine .pure fun l direct directs _ hsound hmatches hcoordinates => ?_
    have hdata := hmatches.data
    cases hdirect : direct.data <;> rw [hdirect] at hdata <;> simp only [Link.DataMatches] at hdata
    exact follows_element_of_constant hsound hmatches hdirect hrank hcoordinates
  | register id =>
    refine .pure fun l direct directs _ hsound hmatches hcoordinates => ?_
    have hdata := hmatches.data
    cases hdirect : direct.data <;> rw [hdirect] at hdata <;> simp only [Link.DataMatches] at hdata
    exact follows_element_of_constant hsound hmatches hdirect hrank hcoordinates
  | buffer id place =>
    refine .map ((emits_offsetOperand place).mono fun operand f hoffset => ?_)
    intro l direct directs hat hsound hmatches hcoordinates
    obtain rfl : direct.layout = layout := hmatches.layout_eq.symm
    obtain ⟨hchecked, hcomputes⟩ := hoffset hmatches.formed hrank.symm
    by_cases hleads : ∃ indices, List.Forall₂ (Scalar.Points l.direct) directs indices ∧
        Layout.InBounds indices direct.layout.extents
    · obtain ⟨indices, hpoints, hin⟩ := hleads
      exact follows_element_of_inside hsound hmatches (hrank.trans hcoordinates.length_eq)
        (fun base hplace => hcomputes l base directs indices hat hsound hplace hcoordinates hpoints) hpoints hin
    · have hdata := hmatches.data
      cases hdirect : direct.data <;> rw [hdirect] at hdata <;> simp only [Link.DataMatches] at hdata
      exact follows_element_of_outside hmatches hdirect hrank hchecked hcoordinates hleads

end Comparison

end StagedArrays
