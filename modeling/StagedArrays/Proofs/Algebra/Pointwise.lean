import StagedArrays.Kernel.Interleaved
import StagedArrays.Proofs.Algebra.Comparing

namespace StagedArrays

/-- Two operands that are brought together element by element. Every operation
    with fresh storage is one of these. -/
structure Pointwise where
  op : BinaryOp
  /-- The operand that is copied. The result has its extents. -/
  base : Value
  /-- The operand that the copy is updated by. One of rank 0 stands for each
      element. -/
  operand : Value
  /-- The elements of the copied operand are on the right. -/
  isReversed : Bool

namespace Pointwise

/-- What two elements give, the first of which was copied. It stands on the
    right where the operation is reversed. -/
def law (p : Pointwise) (x y : Numeric) : Except ValueError Numeric :=
  if p.isReversed then y.binary p.op x else x.binary p.op y

/-- The element of the result at given coordinates, as the operands hold it. The
    result itself has no part in it. -/
def elementAt (p : Pointwise) (heap : Heap) (coordinates : List Nat) : Outcome Numeric := do
  let x ← p.base.peek heap coordinates
  let y ← p.operand.peekSource heap coordinates
  p.law x y

/-- The step that updates one element of the copy, with the operands in the
    order of the operation. -/
def combine {σ : Type} (p : Pointwise) (context : Context) (target other : Value) : Action σ Value :=
  if p.isReversed then context.binary p.op other target else context.binary p.op target other

/-- A pointwise operation, with its operands in either order, is the application
    of an operation to two elements. -/
theorem applies {σ : Type} (p : Pointwise) : Elementwise.Applies (p.combine (σ := σ)) p.law := by
  obtain ⟨op, base, operand, isReversed⟩ := p
  cases isReversed with
  | false => exact Elementwise.applies_binary op
  | true => exact Elementwise.applies_reversed op

end Pointwise

namespace Combination

/-- How an operation with fresh storage for its result brings its operands
    together. Differences and quotients that a scalar begins keep their order;
    sums and products begin with the vector or matrix. -/
def pointwise? : Combination → Option Pointwise
  | scalar op a b => some ⟨op, a.value, b.value, false⟩
  | vector op v operand => some ⟨op, v.value, operand, false⟩
  | matrix op m operand => some ⟨op, m.value, operand, false⟩
  | scalarVector op s v => some ⟨op, v.value, s.value, op matches .sub | .div⟩
  | scalarPlusMatrix s m => some ⟨.add, m.value, s.value, false⟩
  | scalarTimesMatrix s m => some ⟨.mul, m.value, s.value, false⟩
  | _ => none

end Combination

namespace Value

variable {heap after : Heap} {value : Value} {dtype : DType} {layout : Layout} {size : Nat}

/-- Storage that has just been taken for a packed layout is packed storage. It
    begins where its buffer does. -/
theorem packed_add (hpacks : layout.Packs layout.extents size) :
    (⟨dtype, layout, .host ⟨heap.buffers.size⟩ 0⟩ : Value).Packed (heap.add (.zeros dtype size)).2
      ⟨heap.buffers.size⟩ size := by
  have hget : (heap.add (.zeros dtype size)).2.get ⟨heap.buffers.size⟩ = .zeros dtype size := heap.get_add_self _
  refine ⟨rfl, hpacks, ?_, ?_, ?_⟩
  · simp
  · rw [hget]
    rfl
  · simp [hget]

/-- A value that lies within a heap is read as before while its buffer is
    spared. -/
theorem Fits.alike (h : value.Fits heap) (hspares : heap.Spares heap.buffers.size after) : value.Alike heap after :=
  .of_get_eq fun ref offset hdata => hspares.get_eq ref (h.known ref offset hdata)

theorem Fits.spared (h : value.Fits heap) (hspares : heap.Spares heap.buffers.size after) : value.Fits after :=
  ⟨h.sound.of_alike (h.alike hspares), fun ref offset hdata => Nat.lt_of_lt_of_le (h.known ref offset hdata) hspares.size_le⟩

/-- A value that fits does not lie in the next buffer. That one is still to be
    made. -/
theorem Fits.ref_ne (h : value.Fits heap) {ref : HostRef} {offset : Nat} (hdata : value.data = .host ref offset) :
    ref ≠ ⟨heap.buffers.size⟩ := by
  rintro rfl
  exact Nat.lt_irrefl _ (h.known _ offset hdata)

end Value

/-- What is written to storage that was not there before leaves the buffers
    there were. -/
theorem Heap.Touches.spares {heap between after : Heap} {count : Nat} {ref : HostRef} (h : between.Touches ref after)
    (hle : count ≤ ref.index) (hspares : heap.Spares count between) : heap.Spares count after := by
  refine hspares.trans ⟨Nat.le_of_eq h.size_eq.symm, fun other hlt => h.others other ?_⟩
  rintro rfl
  omega

namespace Elementwise

variable {σ : Type} {world : World σ} {base operand : Value} {packed : Layout}
  {combine : Context → Value → Value → Action σ Value} {law : Numeric → Numeric → Except ValueError Numeric}

/-- A copy takes packed storage, and then the elements. It succeeds if there is
    room, for a value that fits its storage. -/
theorem exists_runFrom_copy (hcontext : world.contexts.head? = some .compute)
    (hpacked : base.layout.packedFor base.dtype = .ok packed) :
    ∃ size between, (⟨base.dtype, packed, .host ⟨world.heap.buffers.size⟩ 0⟩ : Value).Packed between
        ⟨world.heap.buffers.size⟩ size ∧
      (between.get ⟨world.heap.buffers.size⟩).length = size ∧ world.heap.Spares world.heap.buffers.size between ∧
      (copy base).runFrom world = (copyInto ⟨base.dtype, packed, .host ⟨world.heap.buffers.size⟩ 0⟩ base >>= fun _ =>
        pure ⟨base.dtype, packed, .host ⟨world.heap.buffers.size⟩ 0⟩).runFrom { world with heap := between } := by
  obtain ⟨hcontiguous, hroom⟩ := Layout.packedFor_eq_ok_iff.mp hpacked
  obtain ⟨size, hpacks⟩ := Layout.packed_eq_ok hcontiguous
  rw [← Layout.size_eq_prod hpacks.increments_eq] at hroom
  refine ⟨size, _, Value.packed_add hpacks.self, ?_, world.heap.spares_add _ (Nat.le_refl _), ?_⟩
  · exact (congrArg HostBuffer.length (world.heap.get_add_self _)).trans (HostBuffer.length_zeros _ _)
  · rw [copy, Stateful.runFrom_bind_of_ok (Action.runFrom_activeContext hcontext), Stateful.runFrom_bind,
      Stateful.runFrom_liftM, hcontiguous, liftM_fault_ok]
    apply Stateful.runFrom_bind_of_ok
    rw [Context.allocate, Action.runFrom_onHeap, Direct.runFrom_allocate hpacks.memorySize_eq hroom]

/-- A copy for which there is no room faults before an element is read. No
    buffer has come up. -/
theorem runFrom_copy_of_full (hcontext : world.contexts.head? = some .compute) (hpacked : base.layout.contiguous = .ok packed)
    {fault : Fault} (hfull : base.dtype.reserve base.layout.extents.prod = .error fault) :
    (copy base).runFrom world = (.error (.fault fault), world) := by
  obtain ⟨size, hpacks⟩ := Layout.packed_eq_ok hpacked
  rw [← Layout.size_eq_prod hpacks.increments_eq] at hfull
  rw [copy, Stateful.runFrom_bind_of_ok (Action.runFrom_activeContext hcontext), Stateful.runFrom_bind,
    Stateful.runFrom_liftM, hpacked, liftM_fault_ok]
  apply Stateful.runFrom_bind_of_error
  rw [Context.allocate, Action.runFrom_onHeap, Direct.runFrom_allocate_of_full hpacks.memorySize_eq hfull]

/-- A copy succeeds where each element can be read, and leaves the buffers there
    were. -/
theorem runFrom_copy (hcontext : world.contexts.head? = some .compute) (hbase : base.Fits world.heap)
    (hpacked : base.layout.packedFor base.dtype = .ok packed) :
    ∃ heap, world.heap.Spares world.heap.buffers.size heap ∧
      (copy base).runFrom world = (((Layout.rowMajor base.layout.extents).mapM (base.peek world.heap)).map fun _ =>
        ⟨base.dtype, packed, .host ⟨world.heap.buffers.size⟩ 0⟩, { world with heap }) := by
  obtain ⟨size, between, hfresh, -, hspares, hcopy⟩ := exists_runFrom_copy hcontext hpacked
  have hextents : packed.extents = base.layout.extents := Layout.extents_eq_of_packedFor hpacked
  have halike := hbase.alike hspares
  have hcontext' : ({ world with heap := between } : World σ).contexts.head? = some .compute := hcontext
  obtain ⟨heap, hrun, htouches, -⟩ := runFrom_copyInto hcontext' hfresh
    (hbase.sound.of_alike halike) rfl hextents.symm fun _ _ hdata => hbase.ref_ne hdata
  refine ⟨heap, htouches.spares (Nat.le_refl _) hspares, ?_⟩
  rw [hcopy, Stateful.runFrom_bind, hrun]
  simp only [hextents, mapM_congr fun coordinates _ => Value.peek_congr hbase.sound halike coordinates]
  cases (Layout.rowMajor base.layout.extents).mapM (base.peek world.heap) <;> rfl

/-- A copy and an update by an operand that joins it give the elements that the
    two make. -/
theorem runFrom_copy_update (happlies : Applies combine law) (hcontext : world.contexts.head? = some .compute)
    (hbase : base.Fits world.heap) (hoperand : operand.Fits world.heap) (hpacked : base.layout.packedFor base.dtype = .ok packed)
    (hjoins : operand.Joins base) :
    ∃ heap, world.heap.Spares world.heap.buffers.size heap ∧
      (copy base >>= fun fresh => update combine fresh operand >>= fun _ => pure fresh).runFrom world =
        ((do
          let _ ← (Layout.rowMajor base.layout.extents).mapM (base.peek world.heap)
          let _ ← (Layout.rowMajor base.layout.extents).mapM (combineWith world.heap law base operand)
          return ⟨base.dtype, packed, .host ⟨world.heap.buffers.size⟩ 0⟩), { world with heap }) ∧
      ∀ xs, (Layout.rowMajor base.layout.extents).mapM (combineWith world.heap law base operand) = .ok xs →
        (heap.get ⟨world.heap.buffers.size⟩).elements.toList = xs ∧
        (Layout.rowMajor base.layout.extents).mapM
          ((⟨base.dtype, packed, .host ⟨world.heap.buffers.size⟩ 0⟩ : Value).peek heap) = .ok xs := by
  obtain ⟨size, between, hfresh, hlength, hspares, hcopy⟩ := exists_runFrom_copy hcontext hpacked
  have hextents : packed.extents = base.layout.extents := Layout.extents_eq_of_packedFor hpacked
  have halike := hbase.alike hspares
  have halike' := hoperand.alike hspares
  have hcontext' : ({ world with heap := between } : World σ).contexts.head? = some .compute := hcontext
  obtain ⟨heap, hrun, htouches, hover⟩ := runFrom_copyInto_update happlies hcontext' hfresh
    (hbase.sound.of_alike halike) (hoperand.sound.of_alike halike') rfl hjoins.1 hextents.symm (hextents ▸ hjoins.2)
    (fun _ _ hdata => hbase.ref_ne hdata) fun _ _ hdata => hoperand.ref_ne hdata
  have hpeek : base.peek between = base.peek world.heap := funext (Value.peek_congr hbase.sound halike)
  have hlaw : combineWith between law base operand = combineWith world.heap law base operand := by
    funext coordinates
    simp only [combineWith, hpeek, Value.peekSource_congr hoperand.sound halike']
  simp only [hextents, hpeek, hlaw] at hrun hover
  refine ⟨heap, htouches.spares (Nat.le_refl _) hspares, ?_, fun xs hxs => ?_⟩
  · rw [Stateful.runFrom_bind, hcopy, ← Stateful.runFrom_bind, bind_assoc]
    simp only [pure_bind]
    rw [← bind_assoc, Stateful.runFrom_bind, hrun]
    cases (Layout.rowMajor base.layout.extents).mapM (base.peek world.heap) with
    | error failure => rfl
    | ok xs => cases (Layout.rowMajor base.layout.extents).mapM (combineWith world.heap law base operand) <;> rfl
  · have hfilled := hover xs hxs
    have hcount : xs.length = size := by
      rw [← (mapM_eq_ok_iff.mp hxs).length_eq, ← hextents, hfresh.packs.length_rowMajor]
    refine ⟨hfilled.toList_eq (hlength.trans hcount.symm), hextents ▸ hfresh.mapM_peek hfilled ?_ fun coordinates hmem => ?_⟩
    · rw [hcount, hfresh.packs.length_rowMajor]
    · obtain ⟨z, hz⟩ := exists_of_mapM hxs (hextents ▸ hmem)
      obtain ⟨x, hx, -⟩ := bind_eq_ok_iff.mp hz
      obtain ⟨item, hitem, -⟩ := bind_eq_ok_iff.mp hx
      exact hfresh.indices_of_elementAt (Layout.mem_rowMajor.mp hmem) hitem

/-- An operand that does not join what is copied is refused, at the latest once
    the copy is made. -/
theorem runFrom_copy_update_of_not_joins (combine : Context → Value → Value → Action σ Value)
    (hcontext : world.contexts.head? = some .compute) (hbase : base.Fits world.heap)
    (hpacked : base.layout.packedFor base.dtype = .ok packed) (hjoins : ¬operand.Joins base) :
    ∃ failure heap, world.heap.Spares world.heap.buffers.size heap ∧
      (copy base >>= fun fresh => update combine fresh operand >>= fun _ => pure fresh).runFrom world =
        (.error failure, { world with heap }) := by
  obtain ⟨heap, hspares, hcopy⟩ := runFrom_copy hcontext hbase hpacked
  cases hxs : (Layout.rowMajor base.layout.extents).mapM (base.peek world.heap) with
  | error failure =>
    rw [hxs] at hcopy
    exact ⟨failure, heap, hspares, Stateful.runFrom_bind_of_error hcopy _⟩
  | ok xs =>
    rw [hxs] at hcopy
    cases hcompare : (⟨base.dtype, packed, .host ⟨world.heap.buffers.size⟩ 0⟩ : Value).compareOperands operand with
    | error failure =>
      refine ⟨failure, heap, hspares, ?_⟩
      rw [Stateful.runFrom_bind_of_ok hcopy]
      exact Stateful.runFrom_bind_of_error (runFrom_update_of_compareOperands hcompare) _
    | ok u =>
      obtain ⟨hdtype, hshape⟩ := Value.joins_of_compareOperands hcompare
      rw [Layout.extents_eq_of_packedFor hpacked] at hshape
      exact (hjoins ⟨hdtype, hshape⟩).elim

/-- What a copy is made of has the rank of what is copied. Packing keeps the
    extents. -/
theorem rank_of_copy_update (hcontext : world.contexts.head? = some .compute) (hbase : base.Fits world.heap)
    (hpacked : base.layout.contiguous = .ok packed) {fresh : Value} {after : World σ}
    (h : (copy base >>= fun fresh => update combine fresh operand >>= fun _ => pure fresh).runFrom world = (.ok fresh, after)) :
    fresh.rank = base.rank := by
  obtain ⟨first, between, hfirst, h⟩ := Stateful.runFrom_bind_eq_ok.mp h
  obtain ⟨_, _, -, h⟩ := Stateful.runFrom_bind_eq_ok.mp h
  cases h
  rcases base.dtype.reserve_cases base.layout.extents.prod with hroom | hfull
  swap
  · rw [runFrom_copy_of_full hcontext hpacked hfull] at hfirst
    cases hfirst
  obtain ⟨heap, -, hcopy⟩ := runFrom_copy hcontext hbase (Layout.packedFor_eq_ok_iff.mpr ⟨hpacked, hroom⟩)
  rw [hcopy] at hfirst
  cases hxs : (Layout.rowMajor base.layout.extents).mapM (base.peek world.heap) with
  | error failure =>
    rw [hxs] at hfirst
    cases hfirst
  | ok xs =>
    rw [hxs] at hfirst
    cases hfirst
    exact congrArg List.length (Layout.extents_eq_of_packed hpacked)

end Elementwise

section OfValue

variable {σ : Type} {world : World σ} {action : Action σ Value}

/-- Where results have rank 1, wrapping them as vectors and taking them out
    again changes nothing. -/
theorem Vector.runFrom_ofValue (h : ∀ fresh after, action.runFrom world = (.ok fresh, after) → fresh.rank = 1) :
    ((action >>= fun fresh => (ofValue fresh : Action σ Vector)) >>= fun v => pure (some v.value)).runFrom world =
      (action >>= fun fresh => pure (some fresh)).runFrom world := by
  rw [bind_assoc, Stateful.runFrom_bind, Stateful.runFrom_bind]
  rcases hrun : action.runFrom world with ⟨failure | fresh, after⟩
  · rfl
  · have hvector : (liftM (ofValue fresh) : Outcome Vector) = .ok ⟨fresh, h fresh after hrun⟩ := ofValue_eq_ok.mpr rfl
    simp only [Stateful.runFrom_bind, Stateful.runFrom_liftM, hvector]

/-- The same for results of rank 2 and matrices. -/
theorem Matrix.runFrom_ofValue (h : ∀ fresh after, action.runFrom world = (.ok fresh, after) → fresh.rank = 2) :
    ((action >>= fun fresh => (ofValue fresh : Action σ Matrix)) >>= fun m => pure (some m.value)).runFrom world =
      (action >>= fun fresh => pure (some fresh)).runFrom world := by
  rw [bind_assoc, Stateful.runFrom_bind, Stateful.runFrom_bind]
  rcases hrun : action.runFrom world with ⟨failure | fresh, after⟩
  · rfl
  · have hmatrix : (liftM (ofValue fresh) : Outcome Matrix) = .ok ⟨fresh, h fresh after hrun⟩ := ofValue_eq_ok.mpr rfl
    simp only [Stateful.runFrom_bind, Stateful.runFrom_liftM, hmatrix]

/-- A scalar with storage is written through. -/
theorem Scalar.assign_of_isAddressable {a : Scalar} (op : BinaryOp) (b : Scalar) (h : a.value.isAddressable = true) :
    a.assign op b = (Elementwise.assignBinary op a.value b.value >>= fun _ => pure a : Action σ Scalar) := if_pos h

/-- An operation on scalars is the elementwise operation on their values. The
    copy of a scalar has rank 0 again, so that it can be wrapped. -/
theorem Scalar.runFrom_binary {a b : Scalar} {packed : Layout} (op : BinaryOp) (hcontext : world.contexts.head? = some .compute)
    (hfits : a.value.Fits world.heap) (hpacked : a.value.layout.contiguous = .ok packed) :
    (a.binary op b >>= fun s => pure (some s.value)).runFrom world =
      (Elementwise.binary op a.value b.value >>= fun fresh => pure (some fresh)).runFrom world := by
  have hroom : a.value.dtype.reserve a.value.layout.extents.prod = .ok () := by
    rw [List.length_eq_zero_iff.mp a.rank_eq]
    exact a.value.dtype.reserve_one
  obtain ⟨heap, -, hcopy⟩ :=
    Elementwise.runFrom_copy hcontext hfits (Layout.packedFor_eq_ok_iff.mpr ⟨hpacked, hroom⟩)
  cases hxs : (Layout.rowMajor a.value.layout.extents).mapM (a.value.peek world.heap) with
  | error failure =>
    rw [hxs] at hcopy
    rw [binary, copy, Elementwise.binary, bind_assoc, bind_assoc, bind_assoc, Stateful.runFrom_bind_of_error hcopy,
      Stateful.runFrom_bind_of_error hcopy]
  | ok xs =>
    rw [hxs] at hcopy
    have hrank : (⟨a.value.dtype, packed, .host ⟨world.heap.buffers.size⟩ 0⟩ : Value).rank = 0 :=
      (congrArg List.length (Layout.extents_eq_of_packed hpacked)).trans a.rank_eq
    have hscalar : (liftM (ofValue ⟨a.value.dtype, packed, .host ⟨world.heap.buffers.size⟩ 0⟩) : Outcome Scalar) =
        .ok ⟨_, hrank⟩ := ofValue_eq_ok.mpr rfl
    rw [binary, copy, Elementwise.binary, bind_assoc, bind_assoc, bind_assoc, Stateful.runFrom_bind_of_ok hcopy,
      Stateful.runFrom_bind_of_ok hcopy, Stateful.runFrom_bind, Stateful.runFrom_liftM, hscalar]
    dsimp only
    rw [assign_of_isAddressable op b rfl, bind_assoc, bind_assoc]
    rfl

end OfValue

namespace Combination

variable {σ : Type} {world : World σ} {c : Combination} {p : Pointwise} {packed : Layout}

/-- Each of the operations copies one operand, updates the copy by the other,
    and gives the copy. -/
theorem runFrom_run [ArrayLibrary] (hp : c.pointwise? = some p) (hcontext : world.contexts.head? = some .compute)
    (hbase : p.base.Fits world.heap) (hpacked : p.base.layout.contiguous = .ok packed) :
    c.run.runFrom world = ((Elementwise.copy p.base >>= fun fresh =>
      Elementwise.update p.combine fresh p.operand >>= fun _ => pure fresh) >>= fun fresh => pure (some fresh)).runFrom world := by
  cases c with
  | scalar op a b =>
    cases hp
    exact Scalar.runFrom_binary op hcontext hbase hpacked
  | vector op v operand =>
    cases hp
    exact Vector.runFrom_ofValue fun fresh after h => (Elementwise.rank_of_copy_update hcontext hbase hpacked h).trans v.rank_eq
  | matrix op m operand =>
    cases hp
    exact Matrix.runFrom_ofValue fun fresh after h => (Elementwise.rank_of_copy_update hcontext hbase hpacked h).trans m.rank_eq
  | scalarVector op s v =>
    cases op <;> cases hp <;>
      exact Vector.runFrom_ofValue fun fresh after h => (Elementwise.rank_of_copy_update hcontext hbase hpacked h).trans v.rank_eq
  | scalarPlusMatrix s m | scalarTimesMatrix s m =>
    cases hp
    exact Matrix.runFrom_ofValue fun fresh after h => (Elementwise.rank_of_copy_update hcontext hbase hpacked h).trans m.rank_eq
  | _ => cases hp

/-- Operations with fresh storage for their results are elementwise, and pure.
    Each buffer there was stays as it is, whatever the outcome. They succeed
    exactly where there is room for the result, the types agree, the operand is
    of rank 0 or of the same extents, and each two elements give one; without
    room the capacity overflows, before anything else is looked at. The result
    is then packed, in a buffer there was not, and holds what the elements give,
    as they were, in row-major order. -/
theorem run_pointwise [ArrayLibrary] (hp : c.pointwise? = some p) (hcontext : world.contexts.head? = some .compute)
    (hbase : p.base.Fits world.heap) (hoperand : p.operand.Fits world.heap) (hpacked : p.base.layout.contiguous = .ok packed) :
    ∃ outcome heap, c.run.runFrom world = (outcome, { world with heap }) ∧
      (∀ ref : HostRef, ref.index < world.heap.buffers.size → heap.get ref = world.heap.get ref) ∧
      (∀ fault, p.base.dtype.reserve p.base.layout.extents.prod = .error fault → outcome = .error (.fault fault)) ∧
      ((∃ result, outcome = .ok result) ↔ p.base.dtype.reserve p.base.layout.extents.prod = .ok () ∧
        p.operand.Joins p.base ∧ ∀ coordinates ∈ Layout.rowMajor p.base.layout.extents, ∃ z, p.elementAt world.heap coordinates = .ok z) ∧
      ∀ result, outcome = .ok result → ∃ fresh ref zs, result = some fresh ∧ fresh = ⟨p.base.dtype, packed, .host ref 0⟩ ∧
        world.heap.buffers.size ≤ ref.index ∧
        (Layout.rowMajor p.base.layout.extents).mapM (p.elementAt world.heap) = .ok zs ∧
        (heap.get ref).elements.toList = zs ∧
        (Layout.rowMajor packed.extents).mapM (fresh.peek heap) = .ok zs := by
  rcases p.base.dtype.reserve_cases p.base.layout.extents.prod with hroom | hfull
  swap
  · have hrun := Elementwise.runFrom_copy_of_full hcontext hpacked hfull
    refine ⟨.error (.fault .capacityOverflow), world.heap, ?_, fun _ _ => rfl, fun fault hfault => ?_, ?_, nofun⟩
    · rw [runFrom_run hp hcontext hbase hpacked, bind_assoc]
      exact Stateful.runFrom_bind_of_error hrun _
    · cases hfull.symm.trans hfault
      rfl
    · exact iff_of_false (fun ⟨_, hresult⟩ => nomatch hresult) fun h => nomatch hfull.symm.trans h.1
  simp only [hroom, true_and, reduceCtorEq, false_implies, implies_true]
  have hpackedFor := Layout.packedFor_eq_ok_iff.mpr ⟨hpacked, hroom⟩
  by_cases hjoins : p.operand.Joins p.base
  · obtain ⟨heap, hspares, hrun, hfilled⟩ := Elementwise.runFrom_copy_update p.applies hcontext hbase hoperand hpackedFor hjoins
    cases hzs : (Layout.rowMajor p.base.layout.extents).mapM (p.elementAt world.heap) with
    | ok zs =>
      obtain ⟨xs, hxs⟩ := Elementwise.exists_mapM_peek hzs
      obtain ⟨helements, hpeek⟩ := hfilled zs hzs
      rw [hxs, ok_bind, show (Layout.rowMajor p.base.layout.extents).mapM _ = .ok zs from hzs] at hrun
      refine ⟨.ok (some ⟨p.base.dtype, packed, .host ⟨world.heap.buffers.size⟩ 0⟩), heap, ?_, hspares.get_eq, ?_, ?_⟩
      · rw [runFrom_run hp hcontext hbase hpacked, Stateful.runFrom_bind_of_ok hrun, Stateful.runFrom_pure]
      · exact iff_of_true ⟨_, rfl⟩ ⟨hjoins, fun _ hmem => exists_of_mapM hzs hmem⟩
      · rintro _ ⟨⟩
        refine ⟨_, _, zs, rfl, rfl, Nat.le_refl _, rfl, helements, ?_⟩
        rw [Layout.extents_eq_of_packed hpacked, hpeek]
    | error failure =>
      obtain ⟨cause, hfails⟩ : ∃ cause, (do
          let _ ← (Layout.rowMajor p.base.layout.extents).mapM (p.base.peek world.heap)
          let _ ← (Layout.rowMajor p.base.layout.extents).mapM (p.elementAt world.heap)
          return (⟨p.base.dtype, packed, .host ⟨world.heap.buffers.size⟩ 0⟩ : Value)) = .error cause := by
        rw [hzs]
        cases (Layout.rowMajor p.base.layout.extents).mapM (p.base.peek world.heap) <;> exact ⟨_, rfl⟩
      refine ⟨.error cause, heap, ?_, hspares.get_eq, ?_, nofun⟩
      · rw [runFrom_run hp hcontext hbase hpacked]
        exact Stateful.runFrom_bind_of_error (hrun.trans (congrArg (·, _) hfails)) _
      · refine iff_of_false (fun ⟨_, hresult⟩ => nomatch hresult) fun h => ?_
        obtain ⟨zs, hok⟩ := exists_mapM h.2
        cases hzs.symm.trans hok
  · obtain ⟨failure, heap, hspares, hrun⟩ :=
      Elementwise.runFrom_copy_update_of_not_joins p.combine hcontext hbase hpackedFor hjoins
    refine ⟨.error failure, heap, ?_, hspares.get_eq, ?_, nofun⟩
    · rw [runFrom_run hp hcontext hbase hpacked, Stateful.runFrom_bind_of_error hrun]
    · exact iff_of_false (fun ⟨_, hresult⟩ => nomatch hresult) fun h => hjoins h.1

/-- Three numbers, the first of which is also a scalar of its own. Operands may
    share storage, since the result never does. -/
def sharing : World Unit where
  heap := ⟨#[⟨.i32, #[.i32 12, .i32 4, .i32 3], by decide⟩]⟩
  contexts := [.compute]
  client := ()

def shared : Vector := ⟨⟨.i32, ⟨[3], [1]⟩, .host ⟨0⟩ 0⟩, rfl⟩

def first : Scalar := ⟨⟨.i32, .scalar, .host ⟨0⟩ 0⟩, rfl⟩

/-- A vector of 2 ^ 61 elements, each of which is the first number. -/
def repeated : Vector := ⟨⟨.i32, ⟨[2 ^ 61], [0]⟩, .host ⟨0⟩ 0⟩, rfl⟩

/-- The first number is added to itself in each place of a vector that has no
    room when it is packed. The addresses of its copy are words and each sum is
    defined, and the capacity overflows nevertheless. -/
theorem run_pointwise_full :
    (vector .add repeated first.value).pointwise? = some ⟨.add, repeated.value, first.value, false⟩ ∧
    sharing.contexts.head? = some .compute ∧ repeated.value.Fits sharing.heap ∧ first.value.Fits sharing.heap ∧
    repeated.value.layout.contiguous = .ok ⟨[2 ^ 61], [1]⟩ ∧ first.value.Joins repeated.value ∧
    (∀ coordinates ∈ Layout.rowMajor repeated.value.layout.extents, ∃ z,
      (⟨.add, repeated.value, first.value, false⟩ : Pointwise).elementAt sharing.heap coordinates = .ok z) ∧
    (vector .add repeated first.value).run.runFrom sharing = (.error (.fault .capacityOverflow), sharing) := by
  have hvector : repeated.value.Fits sharing.heap :=
    ⟨⟨rfl, rfl⟩, fun ref offset hdata => by cases hdata; decide⟩
  have hscalar : first.value.Fits sharing.heap :=
    ⟨⟨rfl, rfl⟩, fun ref offset hdata => by cases hdata; decide⟩
  have hpacked : repeated.value.layout.contiguous = .ok ⟨[2 ^ 61], [1]⟩ := by decide
  have hcount : Word.Signed (2 ^ 61) := Word.signed_iff.mpr (by decide)
  refine ⟨rfl, rfl, hvector, hscalar, hpacked, ⟨rfl, .inl rfl⟩, fun coordinates hmem => ?_, ?_⟩
  · have hpeek := Value.peek_of_repeats hvector.sound rfl rfl hcount (x := .i32 12) rfl coordinates hmem
    exact ⟨.i32 24, by rw [Pointwise.elementAt, hpeek]; rfl⟩
  · rw [runFrom_run rfl rfl hvector hpacked, bind_assoc]
    exact Stateful.runFrom_bind_of_error (Elementwise.runFrom_copy_of_full rfl hpacked rfl) _

/-- The first number is divided by each of the three, itself included. -/
theorem run_pointwise_quotient :
    (scalarVector .div first shared).pointwise? = some ⟨.div, shared.value, first.value, true⟩ ∧
    sharing.contexts.head? = some .compute ∧ shared.value.Fits sharing.heap ∧ first.value.Fits sharing.heap ∧
    shared.value.layout.contiguous = .ok ⟨[3], [1]⟩ ∧
    ∃ heap ref, (scalarVector .div first shared).run.runFrom sharing =
        (.ok (some ⟨.i32, ⟨[3], [1]⟩, .host ref 0⟩), { sharing with heap }) ∧ 1 ≤ ref.index ∧
      heap.get ⟨0⟩ = sharing.heap.get ⟨0⟩ ∧ (heap.get ref).elements.toList = [.i32 1, .i32 3, .i32 4] := by
  have hvector : shared.value.Fits sharing.heap :=
    ⟨⟨rfl, rfl⟩, fun ref offset hdata => by cases hdata; decide⟩
  have hscalar : first.value.Fits sharing.heap :=
    ⟨⟨rfl, rfl⟩, fun ref offset hdata => by cases hdata; decide⟩
  have hpacked : shared.value.layout.contiguous = .ok ⟨[3], [1]⟩ := by decide
  have helements : (Layout.rowMajor [3]).mapM
      ((⟨.div, shared.value, first.value, true⟩ : Pointwise).elementAt sharing.heap) = .ok [.i32 1, .i32 3, .i32 4] := by
    decide +kernel
  obtain ⟨outcome, heap, hrun, hkept, -, hok, hresult⟩ := run_pointwise (c := scalarVector .div first shared)
    (p := ⟨.div, shared.value, first.value, true⟩) rfl rfl hvector hscalar hpacked
  obtain ⟨result, rfl⟩ := hok.mpr ⟨by decide, ⟨rfl, .inl rfl⟩, fun _ hmem => exists_of_mapM helements hmem⟩
  obtain ⟨fresh, ref, zs, rfl, rfl, hle, hzs, hlist, -⟩ := hresult result rfl
  cases helements.symm.trans hzs
  exact ⟨rfl, rfl, hvector, hscalar, hpacked, heap, ref, hrun, hle, hkept ⟨0⟩ (by decide), hlist⟩

end Combination

end StagedArrays
