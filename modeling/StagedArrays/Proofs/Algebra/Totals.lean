import StagedArrays.Proofs.Algebra.InPlace
import StagedArrays.Proofs.Algebra.Pointwise

namespace StagedArrays

namespace Stateful

/-- A loop ends as the fold that its passes carry out, one step each. `inv`
    tells what a partial result has led to, `touched` what is true even where a
    step fails. -/
theorem runFrom_forM_of_steps {ε σ α β : Type} {xs : List α} (body : α → Stateful ε σ Unit)
    (f : β → α → Except (Failure ε) β) (inv : β → σ → Prop) (touched : σ → Prop)
    (htouched : ∀ b state, inv b state → touched state)
    (hstep : ∀ x ∈ xs, ∀ b state, inv b state →
      ∃ after, (body x).runFrom state = ((f b x).map fun _ => (), after) ∧ touched after ∧ ∀ b', f b x = .ok b' → inv b' after)
    {b : β} {state : σ} (h : inv b state) :
    ∃ after, (xs.forM body).runFrom state = ((xs.foldlM f b).map fun _ => (), after) ∧ touched after ∧
      ∀ b', xs.foldlM f b = .ok b' → inv b' after := by
  induction xs generalizing b state with
  | nil =>
    refine ⟨state, rfl, htouched b state h, ?_⟩
    rintro _ ⟨⟩
    exact h
  | cons x xs ih =>
    obtain ⟨next, hrun, htouch, hnext⟩ := hstep x List.mem_cons_self b state h
    have hforM : (x :: xs).forM body = body x >>= fun _ => xs.forM body := rfl
    rw [hforM, List.foldlM_cons]
    cases hx : f b x with
    | error failure =>
      rw [hx] at hrun
      exact ⟨next, runFrom_bind_of_error hrun _, htouch, nofun⟩
    | ok b' =>
      rw [hx] at hrun
      obtain ⟨after, hrest, hafter⟩ := ih (fun y hy => hstep y (List.mem_cons_of_mem x hy)) (hnext b' hx)
      exact ⟨after, (runFrom_bind_of_ok hrun _).trans hrest, hafter⟩

end Stateful

namespace Numeric

/-- Adds what is found at some coordinates to a total. What is not found ends
    the addition. -/
def addTerm (term : List Nat → Outcome Numeric) (total : Numeric) (coordinates : List Nat) : Outcome Numeric := do
  let y ← term coordinates
  total.binary .add y

/-- Adds what is found at one coordinate after another, up to the first
    failure. -/
def addAll (term : List Nat → Outcome Numeric) (visited : List (List Nat)) (total : Numeric) : Outcome Numeric :=
  visited.foldlM (addTerm term) total

end Numeric

namespace Heap

/-- The heap with one buffer more, which begins with a total. All buffers there
    were are the same. -/
structure Totals (heap : Heap) (total : Numeric) (after : Heap) : Prop where
  spares : heap.Spares heap.buffers.size after
  lt_size : heap.buffers.size < after.buffers.size
  get?_eq : (after.get ⟨heap.buffers.size⟩).get? 0 = some total

end Heap

namespace Scalar

/-- The scalar at the start of the next buffer. It is the one that an allocation
    hands out. -/
def next (heap : Heap) (dtype : DType) : Scalar := ⟨⟨dtype, .scalar, .host ⟨heap.buffers.size⟩ 0⟩, rfl⟩

end Scalar

/-- A scalar with storage is replaced in one pass. -/
theorem Scalar.runFrom_discard_assign {σ : Type} {world : World σ} {a b : Scalar} (op : BinaryOp)
    (hcontext : world.contexts.head? = some .compute) (haddressable : a.value.isAddressable = true) (hdtype : b.dtype = a.dtype) :
    (discard (a.assign op b) : Action σ Unit).runFrom world = ((InPlace.assign op).pass a.value b.value []).runFrom world := by
  have hjoins : (InPlace.assign op).Joins a.value b.value := ⟨hdtype, .inl b.rank_eq⟩
  have hassign : (Elementwise.assignBinary op a.value b.value).runFrom world = _ :=
    InPlace.runFrom_run (f := .assign op) hcontext haddressable hjoins
  have hextents : a.value.layout.extents = [] := List.length_eq_zero_iff.mp a.rank_eq
  have hone : (Layout.rowMajor []).forM ((InPlace.assign op).pass (σ := σ) a.value b.value) =
      (InPlace.assign op).pass a.value b.value [] >>= fun _ => pure () := rfl
  rw [hextents, hone, bind_pure_unit] at hassign
  rw [Functor.discard, map_const, Function.comp_apply, Stateful.runFrom_map, assign_of_isAddressable op b haddressable,
    Stateful.runFrom_bind, hassign]
  rcases ((InPlace.assign op).pass a.value b.value []).runFrom world with ⟨_ | _, _⟩ <;> rfl

namespace Heap.Totals

variable {σ : Type} {world : World σ} {before heap : Heap} {total : Numeric}

/-- The scalar that a total is kept in fits its buffer. -/
theorem fits (h : before.Totals total heap) : (Scalar.next before total.dtype).value.Fits heap := by
  have hdtype := Value.dtype_of_get? h.get?_eq
  have hlength : 0 < (heap.get ⟨before.buffers.size⟩).length := (Array.getElem?_eq_some_iff.mp h.get?_eq).1
  refine ⟨⟨?_, rfl⟩, fun ref offset hdata => ?_⟩
  · exact Value.make_host_eq_ok.mpr ⟨hdtype.symm, ⟨1, rfl, by decide, hlength⟩, rfl⟩
  · cases hdata
    exact h.lt_size

theorem held_eq (h : before.Totals total heap) (dtype : DType) : (Scalar.next before dtype).value.held heap = .ok total := by
  rw [Scalar.next, Value.held_host, h.get?_eq]
  rfl

/-- What becomes of a total when its first element is overwritten: the heap is
    that with another total. -/
theorem of_writes (h : before.Totals total heap) {z : Numeric} {after : Heap}
    (hwrites : heap.Writes ⟨before.buffers.size⟩ 0 z after) : before.Totals z after := by
  refine ⟨hwrites.toTouches.spares (Nat.le_refl _) h.spares, hwrites.size_eq ▸ h.lt_size, ?_⟩
  rw [hwrites.get?_eq, if_pos rfl]

/-- A total is replaced by its sum with what a scalar holds, or there is no sum
    and it stays. -/
theorem exists_runFrom_add (h : before.Totals total world.heap) (hcontext : world.contexts.head? = some .compute)
    {x : Scalar} {y : Numeric} (hx : x.value.held world.heap = .ok y) (hdtype : x.dtype = total.dtype) :
    ∃ heap, (discard ((Scalar.next before total.dtype).assign .add x) : Action σ Unit).runFrom world =
        ((liftM (total.binary .add y) : Outcome Numeric).map fun _ => (), { world with heap }) ∧
      before.Spares before.buffers.size heap ∧ ∀ z, total.binary .add y = .ok z → before.Totals z heap := by
  have hcombine : Elementwise.combineWith world.heap (fun x y => x.binary .add y) (Scalar.next before total.dtype).value
      x.value [] = liftM (total.binary .add y) := by
    rw [Elementwise.combineWith, Value.peek_nil h.fits.sound rfl, h.held_eq, ok_bind, Value.peekSource, Value.sourceAt,
      if_pos x.rank_eq]
    simp only [ok_bind, hx]
  obtain ⟨heap, hrun, hfailed, hwrites⟩ := Elementwise.exists_runFrom_updateAt x.value
    (Elementwise.applies_binary .add) h.fits rfl rfl .nil
  have hassign : (discard ((Scalar.next before total.dtype).assign .add x) : Action σ Unit).runFrom world = _ :=
    Scalar.runFrom_discard_assign .add hcontext rfl hdtype
  rw [hcombine] at hrun hfailed hwrites
  refine ⟨heap, hassign.trans hrun, ?_⟩
  cases hz : total.binary .add y with
  | error cause =>
    rw [hfailed (.error cause) (by rw [hz]; rfl)]
    exact ⟨h.spares, by rintro _ ⟨⟩⟩
  | ok z =>
    have hnext := h.of_writes (hwrites z (by rw [hz]; rfl))
    refine ⟨hnext.spares, ?_⟩
    rintro _ ⟨⟩
    exact hnext

end Heap.Totals

namespace Scalar

variable {σ : Type} {world : World σ} {before : Heap} {dtype : DType}

theorem runFrom_ofValue (s : Scalar) (world : World σ) :
    (liftM (ofValue s.value) : Action σ Scalar).runFrom world = (.ok s, world) :=
  Prod.ext (ofValue_eq_ok.mpr rfl) rfl

/-- An action that comes upon a scalar of a type, or fails, and changes
    nothing. -/
inductive Finds (world : World σ) (item : Action σ Scalar) (dtype : DType) : Outcome Numeric → Prop where
  | found {x : Scalar} {y : Numeric} (hrun : item.runFrom world = (.ok x, world))
      (hheld : x.value.held world.heap = .ok y) (hdtype : x.dtype = dtype ∧ y.dtype = dtype) : Finds world item dtype (.ok y)
  | failed {failure : Failure ValueError} (hrun : item.runFrom world = (.error failure, world)) :
      Finds world item dtype (.error failure)

/-- An element of a view is found there as it was before storage was taken. The
    total is in a buffer of its own. -/
theorem finds_element (hcontext : world.contexts.head? = some .compute) {value : Value} {ref : HostRef} {offset : Nat}
    (hfits : value.Fits before) (hdata : value.data = .host ref offset) (hspares : before.Spares before.buffers.size world.heap)
    (coordinates : List Nat) :
    Finds world (do
      let context ← Action.activeContext
      ofValue (← context.element value (coordinates.map Scalar.ofIndex))) value.dtype (value.peek before coordinates) := by
  have halike := hfits.alike hspares
  have hsound := hfits.sound.of_alike halike
  have helement := Context.runFrom_element world value coordinates
  rw [← Value.peek_congr hfits.sound halike, Value.peek]
  cases hitem : value.elementAt world.heap coordinates with
  | error failure =>
    rw [hitem] at helement
    exact .failed ((Stateful.runFrom_bind_of_ok (Action.runFrom_activeContext hcontext) _).trans
      (Stateful.runFrom_bind_of_error helement _))
  | ok item =>
    rw [hitem] at helement
    rcases Value.elementAt_eq_ok hsound.formed hitem with ⟨x, hconstant, -⟩ | ⟨other, start, found, hhost, hin, hsame, rfl⟩
    · cases hdata.symm.trans hconstant
    · obtain ⟨-, size, hsize, -, hle⟩ := hsound.host hhost
      have hlt := Layout.place_lt_memorySize hsize hin
      obtain ⟨y, hy, -⟩ := HostBuffer.exists_get? (Nat.lt_of_lt_of_le (Nat.add_lt_add_left hlt start) hle)
      have hheld : (⟨value.dtype, .scalar, .host other (start + value.layout.place found)⟩ : Value).held world.heap = .ok y := by
        rw [Value.held_host, hy]
        rfl
      rw [ok_bind, hheld]
      refine .found (x := ⟨_, rfl⟩) ?_ hheld ⟨rfl, (Value.dtype_of_get? hy).trans hsame⟩
      rw [Stateful.runFrom_bind_of_ok (Action.runFrom_activeContext hcontext), Stateful.runFrom_bind_of_ok helement]
      exact runFrom_ofValue ⟨_, rfl⟩ world

/-- The product of two scalars that are found is found. It has no storage of its
    own. -/
theorem Finds.mul (hcontext : world.contexts.head? = some .compute) {item other : Action σ Scalar} {x y : Outcome Numeric}
    (hitem : Finds world item dtype x) (hother : Finds world other dtype y) :
    Finds world (do
      let a ← item
      let b ← other
      combine .mul a b) dtype (do
        let a ← x
        let b ← y
        a.binary .mul b) := by
  cases hitem with
  | failed hrun => exact .failed (Stateful.runFrom_bind_of_error hrun _)
  | @found a u hrun hheld hdtype =>
    cases hother with
    | failed hrun' => exact .failed ((Stateful.runFrom_bind_of_ok hrun _).trans (Stateful.runFrom_bind_of_error hrun' _))
    | @found b v hrun' hheld' hdtype' =>
      have hcombine := Context.runFrom_binary world .mul a.value b.value
      rw [hheld, ok_bind, hheld', ok_bind] at hcombine
      have hrun : (do
          let a ← item
          let b ← other
          combine .mul a b : Action σ Scalar).runFrom world =
          (Context.compute.binary .mul a.value b.value >>= fun z => (liftM (ofValue z) : Action σ Scalar)).runFrom world := by
        rw [Stateful.runFrom_bind_of_ok hrun, Stateful.runFrom_bind_of_ok hrun', combine,
          Stateful.runFrom_bind_of_ok (Action.runFrom_activeContext hcontext)]
      simp only [ok_bind]
      cases hz : u.binary .mul v with
      | error cause =>
        rw [hz] at hcombine
        exact .failed (hrun.trans (Stateful.runFrom_bind_of_error hcombine _))
      | ok z =>
        rw [hz] at hcombine
        refine .found (x := ⟨.constant z, rfl⟩) (hrun.trans (Stateful.runFrom_bind_of_ok hcombine _)) rfl ?_
        exact ⟨(Numeric.dtype_of_binary hz).2.trans hdtype.2, (Numeric.dtype_of_binary hz).2.trans hdtype.2⟩

/-- A pass that finds a scalar and adds it to a total. It fails as the term or
    the sum does. -/
theorem Finds.exists_runFrom_add {total : Numeric} {item : Action σ Scalar} {term : Outcome Numeric}
    (h : Finds world item total.dtype term) (htotals : before.Totals total world.heap)
    (hcontext : world.contexts.head? = some .compute) :
    ∃ heap, (item >>= fun x => discard ((next before total.dtype).assign .add x) : Action σ Unit).runFrom world =
        ((do
          let y ← term
          total.binary .add y : Outcome Numeric).map fun _ => (), { world with heap }) ∧
      before.Spares before.buffers.size heap ∧
      ∀ z, (do
        let y ← term
        total.binary .add y : Outcome Numeric) = .ok z → before.Totals z heap := by
  cases h with
  | failed hrun => exact ⟨world.heap, Stateful.runFrom_bind_of_error hrun _, htotals.spares, nofun⟩
  | found hrun hheld hdtype =>
    obtain ⟨heap, hadd, hspares, htotals⟩ := htotals.exists_runFrom_add hcontext hheld hdtype.1
    refine ⟨heap, (Stateful.runFrom_bind_of_ok hrun _).trans hadd, hspares, fun z hz => htotals z ?_⟩
    exact liftM_error_eq_ok_iff.mp hz

/-- Passes that each find a scalar and add it to a total carry out a fold. By
    induction on the coordinates, with the total generalized. -/
theorem exists_runFrom_forM_add {total : Numeric} {visited : List (List Nat)} {body : List Nat → Action σ Unit}
    (item : List Nat → Action σ Scalar) {term : List Nat → Outcome Numeric} (htotals : before.Totals total world.heap)
    (hcontext : world.contexts.head? = some .compute)
    (hbody : ∀ coordinates ∈ visited, body coordinates =
      item coordinates >>= fun x => discard ((next before total.dtype).assign .add x))
    (hfinds : ∀ coordinates ∈ visited, ∀ heap, before.Spares before.buffers.size heap →
      Finds { world with heap } (item coordinates) total.dtype (term coordinates)) :
    ∃ heap, (visited.forM body).runFrom world = ((total.addAll term visited).map fun _ => (), { world with heap }) ∧
      before.Spares before.buffers.size heap ∧ ∀ z, total.addAll term visited = .ok z → before.Totals z heap := by
  obtain ⟨_, hrun, ⟨heap, rfl, hspares⟩, hafter⟩ := Stateful.runFrom_forM_of_steps body (Numeric.addTerm term)
    (fun partialSum (after : World σ) =>
      ∃ heap, after = { world with heap } ∧ before.Totals partialSum heap ∧ partialSum.dtype = total.dtype)
    (fun after => ∃ heap, after = { world with heap } ∧ before.Spares before.buffers.size heap)
    (fun _ _ ⟨heap, hheap, htotals, _⟩ => ⟨heap, hheap, htotals.spares⟩)
    (by
      rintro coordinates hmem partialSum _ ⟨heap, rfl, htotals, hdtype⟩
      have hfound := hfinds coordinates hmem heap htotals.spares
      rw [hbody coordinates hmem]
      rw [← hdtype] at hfound ⊢
      obtain ⟨after, hrun, hspares, hnext⟩ := hfound.exists_runFrom_add htotals hcontext
      refine ⟨_, hrun, ⟨after, rfl, hspares⟩, fun z hz => ⟨after, rfl, hnext z hz, ?_⟩⟩
      obtain ⟨y, -, hz⟩ := bind_eq_ok_iff.mp hz
      exact (Numeric.dtype_of_binary (liftM_error_eq_ok_iff.mp hz)).2)
    ⟨world.heap, rfl, htotals, rfl⟩
  refine ⟨heap, hrun, hspares, fun z hz => ?_⟩
  obtain ⟨_, heq, hresult, -⟩ := hafter z hz
  cases heq
  exact hresult

/-- Fresh storage holds the zero of its type. For a single element there is
    always room. -/
theorem exists_runFrom_allocate (hcontext : world.contexts.head? = some .compute) (dtype : DType) :
    ∃ heap, (allocate dtype).runFrom world = (.ok (next world.heap dtype), { world with heap }) ∧
      world.heap.Totals (.zero dtype) heap := by
  have hget : (world.heap.add (.zeros dtype 1)).2.get ⟨world.heap.buffers.size⟩ = .zeros dtype 1 := world.heap.get_add_self _
  have hlt : world.heap.buffers.size < (world.heap.add (.zeros dtype 1)).2.buffers.size := by simp
  have hdtype : (Numeric.zero dtype).dtype = ((world.heap.add (.zeros dtype 1)).2.get ⟨world.heap.buffers.size⟩).dtype := by
    rw [hget, Numeric.dtype_zero]
    rfl
  have hlength : 0 < ((world.heap.add (.zeros dtype 1)).2.get ⟨world.heap.buffers.size⟩).length := by
    rw [hget, HostBuffer.length_zeros]
    exact Nat.one_pos
  obtain ⟨buffer, hset, hwrites⟩ := Heap.exists_writes (by exact hlt) hdtype hlength
  refine ⟨_, ?_, hwrites.toTouches.spares (Nat.le_refl _) (world.heap.spares_add _ (Nat.le_refl _)),
    hwrites.size_eq ▸ hlt, by rw [hwrites.get?_eq, if_pos rfl]⟩
  have hallocate : (Context.compute.allocate dtype .scalar).runFrom world =
      (.ok (next world.heap dtype).value, { world with heap := (world.heap.add (.zeros dtype 1)).2 }) := by
    rw [Context.allocate, Action.runFrom_onHeap, Direct.runFrom_allocate (Layout.memorySize_of_rank_zero rfl) dtype.reserve_one]
    rfl
  have hcontext' : ({ world with heap := (world.heap.add (.zeros dtype 1)).2 } : World σ).contexts.head? = some .compute := hcontext
  rw [allocate, Stateful.runFrom_bind_of_ok (Action.runFrom_activeContext hcontext), Stateful.runFrom_bind_of_ok hallocate]
  rw [Stateful.runFrom_bind_of_ok (runFrom_ofValue _ _), store, bind_assoc,
    Stateful.runFrom_bind_of_ok (Action.runFrom_activeContext hcontext')]
  exact Stateful.runFrom_bind_of_ok (Context.runFrom_store (Numeric.dtype_zero dtype) hset) _

/-- A copy holds what was held, in storage that was not there. -/
theorem exists_runFrom_copy_of_held (hcontext : world.contexts.head? = some .compute) {s : Scalar} {x : Numeric}
    (hfits : s.value.Fits world.heap) (hheld : s.value.held world.heap = .ok x) :
    ∃ heap, s.copy.runFrom world = (.ok (next world.heap s.dtype), { world with heap }) ∧ world.heap.Totals x heap := by
  have hextents : s.value.layout.extents = [] := List.length_eq_zero_iff.mp s.rank_eq
  have hpacked : s.value.layout.packedFor s.value.dtype = .ok .scalar := by
    rw [Layout.packedFor_eq_ok_iff, Layout.contiguous, hextents]
    exact ⟨rfl, s.value.dtype.reserve_one⟩
  obtain ⟨size, between, hfresh, hlength, hspares, hcopy⟩ := Elementwise.exists_runFrom_copy hcontext hpacked
  have hcontext' : ({ world with heap := between } : World σ).contexts.head? = some .compute := hcontext
  have halike := hfits.alike hspares
  obtain ⟨heap, hrun, htouches, hover⟩ := Elementwise.runFrom_copyInto hcontext' hfresh (hfits.sound.of_alike halike) rfl hextents
    fun _ _ hdata => hfits.ref_ne hdata
  have hfilled : (Layout.rowMajor Layout.scalar.extents).mapM (s.value.peek between) = .ok [x] := by
    rw [show Layout.rowMajor Layout.scalar.extents = [[]] from rfl, List.mapM_cons, Value.peek_congr hfits.sound halike,
      Value.peek_nil hfits.sound s.rank_eq, hheld]
    rfl
  rw [hfilled] at hrun
  have hover := hover [x] hfilled
  refine ⟨heap, ?_, htouches.spares (Nat.le_refl _) hspares, htouches.size_eq ▸ hfresh.lt_size, by rw [hover.get?_eq]; rfl⟩
  rw [copy, Stateful.runFrom_bind_of_ok (hcopy.trans (Stateful.runFrom_bind_of_ok hrun _))]
  exact runFrom_ofValue (next world.heap s.dtype) _

end Scalar

end StagedArrays
