import StagedArrays.Proofs.Emission.DotKernel

namespace StagedArrays

namespace Link

/-- The moment after accesses have been entered into the log. Neither execution
    has moved otherwise. -/
def note (l : Link) (accesses : List Access) : Link := { l with log := l.log ++ accesses }

/-- Noting accesses changes neither the buffers nor the registers of a link, and
    the log grows at its end. -/
theorem keeps_note (l : Link) (accesses : List Access) : l.Keeps (l.note accesses) where
  buffers_eq := rfl
  registers_eq _ _ := rfl
  backing_eq _ _ := rfl
  registers_le := Nat.le_refl _
  buffers_le := Nat.le_refl _
  size_le := Nat.le_refl _
  dtype_eq _ _ := rfl
  length_eq _ _ := rfl
  agreed _ _ h := h

end Link

namespace Comparison

variable {l : Link}

/-- A list of values is one of scalars exactly if it is the list of the values
    of some scalars. -/
theorem scalarsOf_eq_ok {values : List Value} {scalars : List Scalar} :
    Program.scalarsOf values = .ok scalars ↔ scalars.map Scalar.value = values := by
  induction values generalizing scalars with
  | nil =>
    refine ⟨fun h => ?_, fun h => ?_⟩
    · cases h
      rfl
    · rw [List.map_eq_nil_iff.mp h]
      rfl
  | cons value values ih =>
    have hcons : Program.scalarsOf (value :: values) = (do
        return (← Scalar.ofValue value) :: (← Program.scalarsOf values)) := List.mapM_cons
    simp only [hcons, bind_eq_ok_iff, ih, List.map_eq_cons_iff]
    constructor
    · rintro ⟨s, hs, rest, hrest, h⟩
      cases h
      exact ⟨s, rest, rfl, Scalar.ofValue_eq_ok.mp (liftM_layoutError_eq_ok_iff.mpr hs), hrest⟩
    · rintro ⟨s, rest, rfl, hs, hrest⟩
      exact ⟨s, liftM_layoutError_eq_ok_iff.mp (Scalar.ofValue_eq_ok.mpr hs), rest, hrest, rfl⟩

/-- What stands opposite scalars are scalars. Values that stand for each other
    have one rank. -/
theorem exists_scalars {scalars : List Scalar} {directs : List Value}
    (h : List.Forall₂ l.Matches (scalars.map Scalar.value) directs) :
    ∃ scalars' : List Scalar, scalars'.map Scalar.value = directs := by
  induction scalars generalizing directs with
  | nil =>
    cases h
    exact ⟨[], rfl⟩
  | cons s scalars ih =>
    obtain ⟨direct, directs, hmatches, hrest, rfl⟩ := List.forall₂_cons_left_iff.mp h
    obtain ⟨scalars', rfl⟩ := ih hrest
    exact ⟨⟨direct, hmatches.rank_eq.trans s.rank_eq⟩ :: scalars', rfl⟩

/-- Data that stands for other data does so through any layout that both are
    seen through. -/
theorem matches_withLayout {recorded direct view : Value} {shape : Shape} (hmatches : l.Matches recorded direct)
    (hrank : shape.rank = 0 ∨ recorded.isAddressable = true)
    (hview : direct.withLayout l.direct shape.toLayout = .ok view) :
    l.Matches ⟨recorded.dtype, shape.toLayout, recorded.data⟩ view := by
  obtain ⟨rfl, -⟩ := Value.eq_of_withLayout hview
  refine ⟨hmatches.dtype_eq, rfl, shape.formed, ?_⟩
  have hdata := hmatches.data
  obtain ⟨dtype, layout, data⟩ := direct
  cases hrecorded : recorded.data <;> rw [hrecorded] at hdata <;> cases data <;>
    simp only [Link.DataMatches] at hdata ⊢
  case constant.constant =>
    exact ⟨hdata.1, hdata.2.1, hrank.resolve_right (by simp [Value.isAddressable, hrecorded])⟩
  case register.constant =>
    exact ⟨hdata.1, hdata.2.1, hrank.resolve_right (by simp [Value.isAddressable, hrecorded])⟩
  case buffer.host =>
    obtain ⟨hlt, hbacking, other, base, index, _, hbound, hplace, hoffset, -, -, hdtype⟩ := hdata
    obtain ⟨-, ⟨size, hsize, -, hle⟩, -⟩ := Value.make_host_eq_ok.mp hview
    exact ⟨hlt, hbacking, other, base, index, size, hbound, hplace, hoffset, hsize, hle, hdtype⟩

/-- A value is refused another layout only where that reaches beyond the
    storage. -/
theorem refusesLayout_of_withLayout {recorded direct : Value} {shape : Shape} {cause : ValueError}
    (hmatches : l.Matches recorded direct) (hrank : shape.rank = 0 ∨ recorded.isAddressable = true)
    (hview : direct.withLayout l.direct shape.toLayout = .error (.error cause)) : cause.RefusesLayout := by
  rw [← hmatches.isAddressable_eq] at hrank
  have hdata := hmatches.data
  obtain ⟨dtype, layout, data⟩ := direct
  cases data with
  | host ref offset =>
    cases hrecorded : recorded.data <;> rw [hrecorded] at hdata <;> simp only [Link.DataMatches] at hdata
    obtain ⟨-, -, -, -, -, -, -, -, -, -, -, hdtype⟩ := hdata
    refine @Value.make_host_eq_error l.direct shape.toLayout ref offset _ ?_
    rw [hdtype]
    exact hview
  | constant x =>
    have hx : x.dtype = dtype := by
      cases hrecorded : recorded.data <;> rw [hrecorded] at hdata <;> simp only [Link.DataMatches] at hdata
      · exact hdata.2.1
      · exact hdata.2.1
    have hensure : shape.toLayout.ensureRank 0 = .ok () :=
      Layout.ensureRank_eq_ok.mpr (hrank.resolve_right (by simp [Value.isAddressable]))
    simp only [Value.withLayout, Value.make, hx, ne_eq, not_true, ite_false, hensure] at hview
    cases hview
  | buffer | register => cases hrecorded : recorded.data <;> rw [hrecorded] at hdata <;> cases hdata

variable [ArrayLibrary] {c : Comparison} {excused : ValueError → Prop} {builder : FunctionBuilder}

/-- Entering accesses is followed by nothing. The log belongs to the direct
    execution alone. -/
theorem follows_note {accesses : List Access} {post : Link → Unit → Prop}
    (hsound : (l.log ++ accesses).StoredBeforeLoaded → c.Sound (l.note accesses))
    (hpost : (l.log ++ accesses).StoredBeforeLoaded → post (l.note accesses) ()) :
    c.Follows excused l .empty (Program.note accesses) post := by
  intro outcome world hrun hstored
  have hnote : (Program.note accesses).runFrom (c.executingAt l) = (.ok (), c.executingAt (l.note accesses)) := rfl
  rw [hnote] at hrun
  cases hrun
  exact ⟨l.note accesses, rfl, ⟨⟨l.keeps_note accesses, fun _ _ _ _ _ _ _ => rfl⟩, hsound hstored, rfl, rfl, rfl⟩,
    hpost hstored⟩

/-- Accesses that take no storage keep what holds between two executions, if
    what they write agrees. -/
theorem Sound.note (hsound : c.Sound l) {accesses : List Access} (hopened : ∀ ref, .opened ref ∉ accesses)
    (hstored : ∀ cell, .stored cell ∈ accesses → cell.ref.index < l.direct.buffers.size ∧ l.agreed cell)
    (h : (l.log ++ accesses).StoredBeforeLoaded) : c.Sound (l.note accesses) where
  alike ref other hpaired := by
    obtain ⟨hdirect, hrunning, hdtype, hlength, hsigned, hget⟩ := hsound.alike ref other hpaired
    exact ⟨hdirect, hrunning, hdtype, hlength, hsigned, hget⟩
  paired := hsound.paired
  locals declaration hmem hown := by
    obtain ⟨other, hbound, hle, hlt, hdtype, hlength, halone⟩ := hsound.locals declaration hmem hown
    exact ⟨other, hbound, hle, hlt, hdtype, hlength, halone⟩
  opened ref hmem := hsound.opened ref ((List.mem_append.mp hmem).resolve_right (hopened ref))
  stored cell hmem := (List.mem_append.mp hmem).elim (hsound.stored cell) fun hnew => (hstored cell hnew).1
  originals_le := hsound.originals_le
  logged cell hsettled := by
    by_cases hnew : .stored cell ∈ accesses
    · exact (hstored cell hnew).2
    · refine hsound.logged cell fun hopened => ?_
      exact (List.mem_append.mp (hsettled (List.mem_append_left _ hopened))).resolve_right hnew
  storedBeforeLoaded := h

/-- What is noted to be written has been written on both sides. From here on it
    is known to agree. -/
theorem follows_noteStore (hsound : c.Sound l) {recorded value : Value} (hmatches : l.Matches recorded value)
    (hreadable : l.Readable value) :
    c.Follows excused l .empty (Program.noteStore value) fun _ _ => True := by
  refine follows_note (fun h => hsound.note ?_ ?_ h) fun _ => trivial
  · simp
  · intro cell hmem
    obtain ⟨found, hfound, heq⟩ := List.mem_map.mp hmem
    cases heq
    exact ⟨hsound.ref_lt hmatches hfound, hreadable cell hfound⟩

/-- What is noted to be read can be read by what follows. Otherwise the log
    would have a read before a write, which is excluded. -/
theorem Follows.noteLoads_bind {α : Type} {values : List Value} {next : Action AccessLog α} {f : Fragment}
    {post : Link → α → Prop} (hsound : c.Sound l) (hat : l.At builder) (hgrows : next.Grows)
    (h : ∀ l', l.Keeps l' → l'.At builder → c.Sound l' → (∀ value ∈ values, l'.Readable value) →
      c.Follows excused l' f next post) :
    c.Follows excused l f (Program.noteLoads values >>= fun _ => next) post := by
  have hnote : c.Follows excused l .empty (Program.noteLoads values) fun l' _ =>
      ∀ value ∈ values, l'.Readable value := by
    refine follows_note (fun h => hsound.note ?_ ?_ h) fun h value hvalue cell hcell => ?_
    · simp
    · simp
    · exact hsound.logged cell (h.settled (List.mem_flatMap.mpr ⟨value, hvalue, hcell⟩))
  rw [← Fragment.empty_append f]
  refine hnote.bind (fun _ => hgrows) fun l' _ hreaches hreadable => ?_
  have hat' := hreaches.at_extend hat
  rw [FunctionBuilder.extend_empty] at hat'
  exact h l' hreaches.leads.toKeeps hat' hreaches.sound hreadable

/-- A load in the recording is followed by a load. -/
theorem records_loading (recorded : Value) :
    c.Records builder (Program.loading recorded) fun value f => ∀ l direct, l.At builder → c.Sound l →
      l.Matches recorded direct → c.Follows excused l f (Program.loading direct) (·.Matches value ·) := by
  refine .note_bind _ (.activeContext_bind ((@records_load _ _ excused _ recorded).mono fun value f h => ?_))
  intro l direct hat hsound hmatches
  refine .noteLoads_bind hsound hat (.bind .activeContext fun _ => .load _ _) ?_
  intro l' hkeeps hat' hsound' hreadable
  refine .activeContext_bind ((h l' direct hat' hsound' (hsound.matches hkeeps hmatches)
    (hreadable direct List.mem_cons_self)).mono ?_)
  exact fun _ _ _ h => h.1

/-- A store in the recording is followed by a store. -/
theorem records_storing (destination source : Value) :
    c.Records builder (Program.storing destination source) fun _ f =>
      ∀ l destination' source', l.At builder → c.Sound l → l.Matches destination destination' →
        l.Matches source source' →
          c.Follows excused l f (Program.storing destination' source') fun _ _ => True := by
  refine .note_bind _ (.activeContext_bind (.bind (@records_store _ _ excused _ destination source)
    fun _ f h => .note_bind _ (.pure ?_)))
  intro l destination' source' hat hsound hdestination hsource
  refine .noteLoads_bind hsound hat (.bind .activeContext fun _ => .bind (.store _ _ _) fun _ => .note _) ?_
  intro l₁ hkeeps₁ hat₁ hsound₁ hreadable
  refine .activeContext_bind ((h l₁ destination' source' hat₁ hsound₁ (hsound.matches hkeeps₁ hdestination)
    (hsound.matches hkeeps₁ hsource) (hreadable source' List.mem_cons_self)).bind (fun _ => .note _) ?_)
  intro l₂ _ h₂ hwritten
  exact follows_noteStore h₂.sound (hsound.matches (hkeeps₁.trans h₂.leads.toKeeps) hdestination) hwritten

/-- An operation in the recording is followed by the same operation. -/
theorem records_combination (op : BinaryOp) (a b : Value) :
    c.Records builder (Program.combination op a b) fun value f =>
      ∀ l a' b', l.At builder → c.Sound l → l.Matches a a' → l.Matches b b' →
        c.Follows excused l f (Program.combination op a' b') (·.Matches value ·) := by
  refine .note_bind _ (.activeContext_bind ((@records_binary _ _ excused _ op a b).mono fun value f h => ?_))
  intro l a' b' hat hsound ha hb
  refine .noteLoads_bind hsound hat (.bind .activeContext fun _ => .binary _ _ _ _) ?_
  intro l' hkeeps hat' hsound' hreadable
  refine .activeContext_bind ((h l' a' b' hat' hsound' (hsound.matches hkeeps ha) (hsound.matches hkeeps hb)
    (hreadable a' (by simp)) (hreadable b' (by simp))).mono ?_)
  exact fun _ _ _ h => h.1

/-- An element taken in the recording is followed by the element, unless a
    coordinate that is no immediate misses. -/
theorem records_selection (source : Value) (coordinates : List Value) :
    c.Records builder (Program.selection source coordinates) fun value f =>
      ∀ l source' coordinates', l.At builder → c.Sound l → l.Matches source source' →
        List.Forall₂ l.Matches coordinates coordinates' →
          c.Follows (fun cause => cause.RefusesCoordinate ∧ ∃ coordinate ∈ coordinates, coordinate.asConstant? = none)
            l f (Program.selection source' coordinates') (·.Matches value ·) := by
  refine .lift_bind fun scalars hscalars => .note_bind _ (.activeContext_bind
    ((records_element source scalars).mono fun value f h => ?_))
  obtain rfl := scalarsOf_eq_ok.mp (liftM_layoutError_eq_ok_iff.mp hscalars)
  intro l source' coordinates' hat hsound hsource hcoordinates
  obtain ⟨scalars', rfl⟩ := exists_scalars hcoordinates
  refine .lift_bind (liftM_layoutError_eq_ok_iff.mpr (scalarsOf_eq_ok.mpr rfl)) ?_
  refine .noteLoads_bind hsound hat (.bind .activeContext fun _ => .element _ _ _) ?_
  intro l' hkeeps hat' hsound' hreadable
  have hscalars' : List.Forall₂ (fun (coordinate direct : Scalar) =>
      l'.Matches coordinate.value direct.value ∧ l'.Readable direct.value) scalars scalars' := by
    rw [List.forall₂_map_left_iff, List.forall₂_map_right_iff] at hcoordinates
    refine List.forall₂_iff_get.mpr ⟨hcoordinates.length_eq, fun i hi hi' => ⟨?_, ?_⟩⟩
    · exact hsound.matches hkeeps (hcoordinates.get hi hi')
    · exact hreadable _ (List.mem_map_of_mem (List.get_mem scalars' ⟨i, hi'⟩))
  refine .activeContext_bind (((h l' source' scalars' hat' hsound' (hsound.matches hkeeps hsource) hscalars').mono
    fun _ _ _ h => h.1).excuse ?_)
  rintro cause ⟨hrefuses, ⟨coordinate, hmem, hnone⟩, -⟩
  exact ⟨hrefuses, coordinate.value, List.mem_map_of_mem hmem, hnone⟩

/-- A view in the recording is followed by the view, unless the storage does not
    reach as far. -/
theorem records_viewing (source : Value) (shape : Shape) :
    c.Records builder (Program.viewing source shape.toLayout) fun value f =>
      ∀ l source', l.At builder → c.Sound l → l.Matches source source' →
        c.Follows ValueError.RefusesLayout l f (Program.viewing source' shape.toLayout) (·.Matches value ·) := by
  intro log value world hrun
  obtain ⟨hvalue, rfl⟩ := Prod.mk.inj hrun
  obtain ⟨rfl, hrank⟩ := Value.eq_of_withLayout hvalue
  refine ⟨.empty, log, by rw [FunctionBuilder.extend_empty]; rfl, placed_empty _, ?_⟩
  intro l source' hat hsound hmatches
  have hrun' : (Program.viewing source' shape.toLayout).runFrom (c.executingAt l) =
      (source'.withLayout l.direct shape.toLayout, c.executingAt l) := rfl
  cases hview : source'.withLayout l.direct shape.toLayout with
  | ok view =>
    rw [hview] at hrun'
    exact (Reaches.refl hsound).follows hrun' (matches_withLayout hmatches hrank hview)
  | error failure =>
    rw [hview] at hrun'
    cases failure with
    | fault fault => exact .of_fault hrun'
    | error cause => exact .of_excused (refusesLayout_of_withLayout hmatches hrank hview) hrun'

/-- An inner product in the recording is followed by an inner product, with what
    it reads noted before. -/
theorem records_product (v w : Value) :
    c.Records builder (Program.product v w) fun value f =>
      (builder.extend f).buffers.toList <+: c.declarations → ∀ l v' w', l.At builder → c.Sound l →
        l.Matches v v' → l.Matches w w' →
          c.Follows ValueError.RefusesCoordinate l f (Program.product v' w') (·.Matches value ·) := by
  refine .lift_bind fun left hleft => .lift_bind fun right hright => .note_bind _ (.map
    ((records_dot left right).mono fun s f h => ?_))
  intro hprefix l v' w' hat hsound hv hw
  obtain rfl := Vector.ofValue_eq_ok.mp hleft
  obtain rfl := Vector.ofValue_eq_ok.mp hright
  have hleft' := Vector.ofValue_eq_ok.mpr (rfl : (⟨v', hv.rank_eq.trans left.rank_eq⟩ : Vector).value = v')
  have hright' := Vector.ofValue_eq_ok.mpr (rfl : (⟨w', hw.rank_eq.trans right.rank_eq⟩ : Vector).value = w')
  refine .lift_bind hleft' (.lift_bind hright' (.noteLoads_bind hsound hat (.bind (.dot _ _) fun _ => .pure _) ?_))
  intro l' hkeeps hat' hsound' hreadable
  refine .map ((h hprefix l' _ _ hat' hsound' ⟨⟨hsound.matches hkeeps hv, hreadable _ (by simp)⟩,
    hsound.matches hkeeps hw, hreadable _ (by simp)⟩).mono ?_)
  exact fun _ _ _ h => h.1

end Comparison

end StagedArrays
