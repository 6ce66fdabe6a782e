import StagedArrays.Proofs.Algebra.Combination
import StagedArrays.Proofs.Algebra.Copying
import StagedArrays.Proofs.Algebra.Sparing

namespace StagedArrays

variable {σ : Type} {world : World σ} {context : Context} {failure : Failure ValueError}

/-- The check that an operation makes on the spot is the comparison of types. -/
theorem Value.liftM_ensureDType (expected given : Value) :
    (liftM (given.ensureDType expected.dtype) : Outcome Unit) = expected.compareTypes given := by
  by_cases h : given.dtype = expected.dtype
  · rw [compareTypes, if_pos h, ensureDType, if_neg (not_not.mpr h)]
    rfl
  · rw [compareTypes_of_ne h, ensureDType, if_pos h]
    rfl

namespace Elementwise

/-- The check of an update is the comparison of its operands, with the same
    order and the same errors. -/
theorem checkOperands_eq (destination source : Value) :
    checkOperands destination source = destination.compareOperands source := by
  rw [checkOperands, Value.liftM_ensureDType, Value.compareOperands]
  cases destination.compareTypes source with
  | error failure => rfl
  | ok u =>
    by_cases hrank : source.rank = 0
    · simp [hrank]
    · by_cases hextents : source.layout.extents = destination.layout.extents
      · simp [hrank, hextents, Value.compareExtents, ok_bind]
      · simp [hrank, hextents, Value.compareExtents]

/-- An update of operands that do not fit fails before anything is written. The
    world is as it was. -/
theorem runFrom_update_of_compareOperands {combine : Context → Value → Value → Action σ Value} {destination source : Value}
    (h : destination.compareOperands source = .error failure) :
    (update combine destination source).runFrom world = (.error failure, world) := by
  rw [update, checkOperands_eq, Stateful.runFrom_bind, Stateful.runFrom_liftM, h]
  rfl

/-- A copy onto another value compares first. If that fails, nothing has been
    read or written. -/
theorem runFrom_copyInto_of_comparison {destination source : Value}
    (h : (Combination.copyInto destination source).comparison = .error failure) :
    (copyInto destination source).runFrom world = (.error failure, world) := by
  rw [Combination.comparison, ← Value.liftM_ensureDType] at h
  rw [copyInto, Stateful.runFrom_bind, Stateful.runFrom_liftM]
  cases htypes : (liftM (source.ensureDType destination.dtype) : Outcome Unit) with
  | error cause =>
    rw [htypes] at h
    cases h
    rfl
  | ok u =>
    rw [htypes, ok_bind, Value.compareExtents] at h
    split at h
    · cases h
    · next hextents =>
      dsimp only
      rw [if_pos hextents, Stateful.runFrom_bind, Stateful.runFrom_liftM]
      cases hsize : destination.size with
      | error fault =>
        rw [hsize] at h
        cases h
        rfl
      | ok size =>
        dsimp only [liftM_fault_ok]
        rw [hsize, liftM_fault_ok, ok_bind] at h
        rw [Stateful.runFrom_bind, Stateful.runFrom_liftM]
        cases hsize' : source.size <;> rw [hsize'] at h <;> cases h <;> rfl

end Elementwise

namespace Scalar

/-- An update of a scalar by one of another type is refused, also where the
    scalar is an immediate and there is no storage to protect. -/
theorem runFrom_assign_of_dtype_ne {a b : Scalar} (op : BinaryOp) (h : b.dtype ≠ a.dtype) :
    (a.assign op b).runFrom world = (.error (.error (.typeMismatch a.dtype b.dtype)), world) := by
  have htypes : a.value.compareTypes b.value = .error (.error (.typeMismatch a.dtype b.dtype)) := if_neg h
  unfold assign
  split
  · refine Stateful.runFrom_bind_of_error (Elementwise.runFrom_update_of_compareOperands ?_) _
    rw [Value.compareOperands, htypes]
    rfl
  · refine Stateful.runFrom_bind_of_error ?_ _
    rw [Stateful.runFrom_liftM, dtype, Value.liftM_ensureDType, htypes]
    rfl

end Scalar

namespace Vector

variable {v w : Vector}

/-- Vectors whose numbers of elements are not found to be the same are refused
    for that. -/
theorem runFrom_compareCounts {α : Type} {next : Action σ α} (hcounts : ¬∃ count, v.size = .ok count ∧ w.size = .ok count)
    (h : v.compareSizes w = .error failure) :
    (do
      let vSize ← v.size
      let wSize ← w.size
      if vSize ≠ wSize then throw (.error (.sizeMismatch vSize wSize))
      next : Action σ α).runFrom world = (.error failure, world) := by
  rw [Stateful.runFrom_bind, Stateful.runFrom_liftM]
  rw [compareSizes] at h
  cases hv : v.size with
  | error fault =>
    rw [hv] at h
    cases h
    rfl
  | ok m =>
    cases hw : w.size with
    | error fault =>
      rw [hv, hw] at h
      cases h
      rfl
    | ok n =>
      have hne : m ≠ n := fun heq => hcounts ⟨m, hv, heq ▸ hw⟩
      rw [hv, hw, liftM_fault_ok, liftM_fault_ok, ok_bind, ok_bind, if_pos hne] at h
      cases h
      dsimp only [liftM_fault_ok]
      rw [Stateful.runFrom_bind, Stateful.runFrom_liftM]
      dsimp only [liftM_fault_ok]
      rw [if_pos hne]
      rfl

/-- Otherwise they are refused for their types. -/
theorem of_compareSizes {count : Nat} (h : v.compareSizes w = .error failure) (hv : v.size = .ok count)
    (hw : w.size = .ok count) : w.dtype ≠ v.dtype ∧ failure = .error (.typeMismatch v.dtype w.dtype) := by
  rw [compareSizes, hv, hw, liftM_fault_ok, ok_bind, ok_bind, if_neg (not_not.mpr rfl)] at h
  exact Value.of_compareTypes h

theorem runFrom_size {count : Nat} (h : v.size = .ok count) (world : World σ) :
    (liftM v.size : Action σ Nat).runFrom world = (.ok count, world) := by
  rw [Stateful.runFrom_liftM, h]
  rfl

/-- Inner products compare sizes and types before a kernel or a loop is chosen,
    so that a mismatch is found in every context and changes nothing. -/
theorem runFrom_dot_of_compareSizes [ArrayLibrary] (h : v.compareSizes w = .error failure) :
    (v.dot w).runFrom world = (.error failure, world) := by
  rw [dot]
  by_cases hcounts : ∃ count, v.size = .ok count ∧ w.size = .ok count
  · obtain ⟨count, hv, hw⟩ := hcounts
    obtain ⟨hne, rfl⟩ := of_compareSizes h hv hw
    rw [Stateful.runFrom_bind_of_ok (runFrom_size hv world), Stateful.runFrom_bind_of_ok (runFrom_size hw world)]
    dsimp only
    rw [if_neg (not_not.mpr rfl), if_pos (Ne.symm hne)]
    rfl
  · exact runFrom_compareCounts hcounts h

/-- Adds the product of every two elements to a scalar with storage. It is the
    part of an inner product after its comparisons. -/
def productsInto (v w : Vector) (total : Scalar) : Action σ Unit :=
  Action.forVector v.value fun index => do
    let x ← v.element index
    let y ← w.element index
    discard (total.assign .add (← Scalar.combine .mul x y))

/-- Vectors of one size are multiplied into a total. Their types come up only in
    the passes. -/
theorem runFrom_dotByLoop_of_size {count : Nat} (hv : v.size = .ok count) (hw : w.size = .ok count) (world : World σ) :
    (v.dotByLoop w).runFrom world = (do
      let total ← Scalar.allocate v.dtype
      v.productsInto w total
      return total : Action σ Scalar).runFrom world := by
  rw [dotByLoop, Stateful.runFrom_bind_of_ok (runFrom_size hv world), Stateful.runFrom_bind_of_ok (runFrom_size hw world)]
  dsimp only
  rw [if_neg (not_not.mpr rfl)]
  rfl

end Vector

namespace FunctionDeclaration

/-- A call whose arguments do not pass the check executes nothing. Neither does
    it record anything. -/
theorem runFrom_call_of_checkArguments {function : FunctionDeclaration} {args : List Value}
    (hcontext : world.contexts.head? = some context) (h : function.checkArguments args = .error failure) :
    (function.call args).runFrom world = (.error failure, world) := by
  rw [call, Stateful.runFrom_bind_of_ok (Action.runFrom_activeContext hcontext), callIn, Stateful.runFrom_bind,
    Stateful.runFrom_liftM, h]
  rfl

end FunctionDeclaration

namespace Elementwise

variable {fresh : Value} {after : World σ}

/-- The copy is compared as what it is a copy of. What is refused for a value is
    refused for its copy, and for the same reason. -/
theorem runFrom_update_copy {combine : Context → Value → Value → Action σ Value} {value operand : Value}
    (hcontext : world.contexts.head? = some context) (hcopy : (copy value).runFrom world = (.ok fresh, after))
    (h : value.compareOperands operand = .error failure) :
    (update combine fresh operand).runFrom after = (.error failure, after) := by
  have hends := ends_copy hcontext value
  rw [hcopy] at hends
  obtain ⟨-, hdtype, hextents, -⟩ := hends.ok fresh rfl
  exact runFrom_update_of_compareOperands (by rw [Value.compareOperands_congr hdtype hextents, h])

end Elementwise

namespace Scalar

variable {fresh : Value} {after : World σ}

/-- The copy of a scalar is a scalar of its type. It has storage, also where
    that scalar had none. -/
theorem exists_runFrom_copy {s : Scalar} (hcontext : world.contexts.head? = some context)
    (hcopy : (Elementwise.copy s.value).runFrom world = (.ok fresh, after)) :
    ∃ total : Scalar, s.copy.runFrom world = (.ok total, after) ∧ total.value = fresh ∧ total.dtype = s.dtype ∧
      world.Keeps after ∧ context.Ready after := by
  have hends := Elementwise.ends_copy hcontext s.value
  rw [hcopy] at hends
  obtain ⟨hkeeps, hdtype, hextents, hready⟩ := hends.ok fresh rfl
  have hrank : fresh.rank = 0 := by
    rw [Value.rank, Layout.rank, hextents]
    exact s.rank_eq
  refine ⟨⟨fresh, hrank⟩, ?_, rfl, hdtype, hkeeps, hready⟩
  rw [copy, Stateful.runFrom_bind_of_ok hcopy, Stateful.runFrom_liftM]
  exact Prod.ext (ofValue_eq_ok.mpr rfl) rfl

/-- A combination of scalars of two types fails after the copy of the left one.
    The storage of the copy has been taken by then. -/
theorem runFrom_binary_of_dtype_ne {a b : Scalar} (op : BinaryOp) (hcontext : world.contexts.head? = some context)
    (hcopy : (Elementwise.copy a.value).runFrom world = (.ok fresh, after)) (h : b.dtype ≠ a.dtype) :
    (a.binary op b).runFrom world = (.error (.error (.typeMismatch a.dtype b.dtype)), after) := by
  obtain ⟨total, htotal, -, hdtype, -⟩ := exists_runFrom_copy hcontext hcopy
  rw [binary, Stateful.runFrom_bind_of_ok htotal, runFrom_assign_of_dtype_ne op (hdtype ▸ h), hdtype]

end Scalar

end StagedArrays
