import StagedArrays.Algebra.Reduce
import StagedArrays.Proofs.Script.Arguments
import StagedArrays.Proofs.Storage.Fits

namespace StagedArrays

/-- The operations that bring two operands together, or arguments and
    parameters. -/
inductive Combination where
  /-- `a op= b` -/
  | assignScalar (op : BinaryOp) (a b : Scalar)
  /-- `v op= operand` -/
  | assignVector (op : BinaryOp) (v : Vector) (operand : Value)
  /-- `m op= operand` -/
  | assignMatrix (op : BinaryOp) (m : Matrix) (operand : Value)
  /-- `destination = operand op destination` -/
  | assignReversed (op : BinaryOp) (destination operand : Value)
  /-- `destination = source` -/
  | copyInto (destination source : Value)
  | call (function : FunctionDeclaration) (args : List Value)
  | dot (v w : Vector)
  | dotByLoop (v w : Vector)
  | accumulate (v : Vector) (initial : Scalar)
  /-- `a op b` -/
  | scalar (op : BinaryOp) (a b : Scalar)
  /-- `v op operand` -/
  | vector (op : BinaryOp) (v : Vector) (operand : Value)
  /-- `m op operand` -/
  | matrix (op : BinaryOp) (m : Matrix) (operand : Value)
  /-- `s op v` -/
  | scalarVector (op : BinaryOp) (s : Scalar) (v : Vector)
  /-- `s + m` -/
  | scalarPlusMatrix (s : Scalar) (m : Matrix)
  /-- `s * m` -/
  | scalarTimesMatrix (s : Scalar) (m : Matrix)

namespace Value

/-- Refuses a value that is not of the type of another. The error names the type
    that was expected first. -/
def compareTypes (expected given : Value) : Outcome Unit :=
  if given.dtype = expected.dtype then .ok () else .error (.error (.typeMismatch expected.dtype given.dtype))

/-- Refuses a value that has not the extents of another. The error tells how
    many elements there are. -/
def compareExtents (expected given : Value) : Outcome Unit :=
  if given.layout.extents = expected.layout.extents then .ok ()
  else do throw (.error (.sizeMismatch (← expected.size) (← given.size)))

/-- Compares types, and then extents. An operand of rank 0 stands for each
    element. -/
def compareOperands (expected given : Value) : Outcome Unit := do
  expected.compareTypes given
  if given.rank = 0 then return () else expected.compareExtents given

/-- A value can be combined with each element of another, or element by
    element. -/
def Joins (given expected : Value) : Prop :=
  given.dtype = expected.dtype ∧ (given.rank = 0 ∨ given.layout.extents = expected.layout.extents)

end Value

namespace ValueType

/-- A value has the type, level and extents of a parameter. Increments are not
    part of it. -/
def Admits (type : ValueType) (value : Value) : Prop :=
  value.dtype = type.dtype ∧ value.pointerLevel = type.pointerLevel ∧ value.layout.extents = type.layout.extents

end ValueType

namespace Vector

/-- Compares the numbers of elements, and then types. This is the order of an
    inner product. -/
def compareSizes (v w : Vector) : Outcome Unit := do
  let vSize ← v.size
  let wSize ← w.size
  if vSize ≠ wSize then throw (.error (.sizeMismatch vSize wSize))
  v.value.compareTypes w.value

/-- The storage of a vector can be used in a context, and its elements can be
    counted. -/
structure Usable (context : Context) (heap : Heap) (v : Vector) : Prop where
  counted : ∃ size, v.size = .ok size
  there : match context with
    | .compute => v.value.Fits heap ∧ v.value.host?.isSome
    | .emitter _ => ∃ id place, v.value.data = .buffer id place

end Vector

namespace Combination

variable {σ : Type}

/-- Carries out an operation, in whichever context is active. -/
def run [ArrayLibrary] : Combination → Action σ (Option Value)
  | assignScalar op a b => do return some (← a.assign op b).value
  | assignVector op v operand => do
    v.assign op operand
    return none
  | assignMatrix op m operand => do
    m.assign op operand
    return none
  | assignReversed op destination operand => do
    Elementwise.assignBinaryReversed op destination operand
    return none
  | copyInto destination source => do
    Elementwise.copyInto destination source
    return none
  | call function args => function.call args
  | dot v w => do return some (← v.dot w).value
  | dotByLoop v w => do return some (← v.dotByLoop w).value
  | accumulate v initial => do return some (← v.accumulate initial).value
  | scalar op a b => do return some (← a.binary op b).value
  | vector op v operand => do return some (← v.binary op operand).value
  | matrix op m operand => do return some (← m.binary op operand).value
  | scalarVector op s v => do return some (← v.scalarFirst op s).value
  | scalarPlusMatrix s m => do return some (← m.scalarAdd s).value
  | scalarTimesMatrix s m => do return some (← m.scalarMul s).value

/-- The operands have the same type, and shapes that go together. Nothing is
    said here about contexts or storage. -/
def Fits : Combination → Prop
  | assignScalar _ a b | scalar _ a b => b.dtype = a.dtype
  | assignVector _ v operand | vector _ v operand => operand.Joins v.value
  | assignMatrix _ m operand | matrix _ m operand => operand.Joins m.value
  | assignReversed _ destination operand => operand.Joins destination
  | copyInto destination source =>
    source.dtype = destination.dtype ∧ source.layout.extents = destination.layout.extents
  | call function args => List.Forall₂ ValueType.Admits function.parameters args
  | dot v w | dotByLoop v w => w.dtype = v.dtype ∧ w.value.layout.extents = v.value.layout.extents
  | accumulate v initial => v.dtype = initial.dtype
  | scalarVector _ s v => s.dtype = v.dtype
  | scalarPlusMatrix s m | scalarTimesMatrix s m => s.dtype = m.dtype

/-- Refuses operands that do not fit, with the error that says why. The order of
    the comparisons is that of the operations. -/
def comparison : Combination → Outcome Unit
  | assignScalar _ a b | scalar _ a b => a.value.compareTypes b.value
  | assignVector _ v operand | vector _ v operand => v.value.compareOperands operand
  | assignMatrix _ m operand | matrix _ m operand => m.value.compareOperands operand
  | assignReversed _ destination operand => destination.compareOperands operand
  | copyInto destination source => do
    destination.compareTypes source
    destination.compareExtents source
  | call function args => function.checkArguments args
  | dot v w | dotByLoop v w => v.compareSizes w
  | accumulate v initial => initial.value.compareTypes v.value
  | scalarVector _ s v => v.value.compareTypes s.value
  | scalarPlusMatrix s m | scalarTimesMatrix s m => m.value.compareTypes s.value

/-- What an operation does before it compares its operands: it takes and fills
    storage for the result. -/
def groundwork : Combination → Option (Action σ Value)
  | assignScalar .. | assignVector .. | assignMatrix .. | assignReversed .. | copyInto .. | call .. | dot .. => none
  | dotByLoop v w =>
    match v.size, w.size with
    | .ok m, .ok n => if m = n then some (do return (← Scalar.allocate v.dtype).value) else none
    | _, _ => none
  | accumulate _ initial => some (Elementwise.copy initial.value)
  | scalar _ a _ => some (Elementwise.copy a.value)
  | vector _ v _ | scalarVector _ _ v => some (Elementwise.copy v.value)
  | matrix _ m _ | scalarPlusMatrix _ m | scalarTimesMatrix _ m => some (Elementwise.copy m.value)

/-- The vectors whose types an operation compares with others only when it comes
    to their elements. -/
def passes : Combination → List Vector
  | accumulate v _ => [v]
  | dotByLoop v w => [v, w]
  | _ => []

end Combination

namespace Value

variable {expected given other : Value}

theorem compareTypes_of_ne (h : given.dtype ≠ expected.dtype) :
    expected.compareTypes given = .error (.error (.typeMismatch expected.dtype given.dtype)) := if_neg h

/-- Types are compared first, so that a failure of this comparison names both
    types and means that they differ. -/
theorem of_compareTypes {failure : Failure ValueError} (h : expected.compareTypes given = .error failure) :
    given.dtype ≠ expected.dtype ∧ failure = .error (.typeMismatch expected.dtype given.dtype) := by
  rw [compareTypes] at h
  split at h
  · cases h
  · next hne =>
    cases h
    exact ⟨hne, rfl⟩

/-- Where types have been compared with success they are the same. Nothing is
    said of layouts. -/
theorem eq_of_compareTypes {u : Unit} (h : expected.compareTypes given = .ok u) : given.dtype = expected.dtype := by
  by_contra hne
  rw [compareTypes_of_ne hne] at h
  cases h

/-- Operands that pass the comparison of extents have the same extents. Scalars
    pass another comparison. -/
theorem eq_of_compareExtents {u : Unit} (h : expected.compareExtents given = .ok u) :
    given.layout.extents = expected.layout.extents := by
  by_contra hne
  rw [compareExtents, if_neg hne] at h
  obtain ⟨_, -, h⟩ := bind_eq_ok_iff.mp h
  obtain ⟨_, -, h⟩ := bind_eq_ok_iff.mp h
  cases h

/-- Operands that pass the comparison of an update can be joined element by
    element. -/
theorem joins_of_compareOperands {u : Unit} (h : expected.compareOperands given = .ok u) : given.Joins expected := by
  obtain ⟨_, htypes, h⟩ := bind_eq_ok_iff.mp h
  refine ⟨eq_of_compareTypes htypes, ?_⟩
  by_cases hrank : given.rank = 0
  · exact .inl hrank
  · rw [if_neg hrank] at h
    exact .inr (eq_of_compareExtents h)

/-- Types are compared before extents. So a mismatch of types is what is
    told. -/
theorem compareOperands_of_compareTypes {failure : Failure ValueError} (h : expected.compareTypes given = .error failure) :
    expected.compareOperands given = .error failure := by
  rw [compareOperands, h]
  rfl

/-- Only the type and the extents of the first value count. A copy of it can so
    take its place. -/
theorem compareOperands_congr (hdtype : other.dtype = expected.dtype)
    (hextents : other.layout.extents = expected.layout.extents) :
    other.compareOperands given = expected.compareOperands given := by
  simp only [compareOperands, compareTypes, compareExtents, size, Layout.elementCount, hdtype, hextents]

end Value

namespace ValueType

/-- A value that passes the check of a type is admitted by it. The converse
    holds too, as the next lemma says. -/
theorem admits_of_check {type : ValueType} {value : Value} {u : Unit} (h : type.check value = .ok u) :
    type.Admits value := by
  obtain ⟨hlevel, hextents⟩ := of_check h
  obtain ⟨_, hdtype, -⟩ := bind_eq_ok_iff.mp h
  exact ⟨Value.ensureDType_eq_ok.mp (liftM_error_eq_ok_iff.mp hdtype), hlevel, hextents.symm⟩

/-- A value that a type admits passes its check. The check looks at the type,
    the level and the extents, and nothing else. -/
theorem check_of_admits {type : ValueType} {value : Value} (h : type.Admits value) : type.check value = .ok () := by
  obtain ⟨hdtype, hlevel, hextents⟩ := h
  have hensure : value.ensureDType type.dtype = .ok () := Value.ensureDType_eq_ok.mpr hdtype
  simp only [check, hensure, hlevel, hextents, liftM_error_ok, ok_bind, ne_eq, not_true, if_false]
  rfl

end ValueType

namespace Vector

variable {v w : Vector}

theorem exists_extents_eq (v : Vector) : ∃ extent, v.value.layout.extents = [extent] := List.length_eq_one_iff.mp v.rank_eq

theorem size_eq {extent : Nat} (h : v.value.layout.extents = [extent]) : v.size = Word.mul 1 extent := by
  rw [size, Value.size, Layout.elementCount, h]
  exact bind_pure _

/-- The size tells the extent. For a vector the two comparisons come to the
    same. -/
theorem extents_eq_of_size {count : Nat} (hv : v.size = .ok count) (hw : w.size = .ok count) :
    v.value.layout.extents = w.value.layout.extents := by
  obtain ⟨extent, hextent⟩ := v.exists_extents_eq
  obtain ⟨extent', hextent'⟩ := w.exists_extents_eq
  rw [size_eq hextent, Word.mul_eq_ok_iff, Nat.one_mul] at hv
  rw [size_eq hextent', Word.mul_eq_ok_iff, Nat.one_mul] at hw
  rw [hextent, hextent', ← hv.1, ← hw.1]

/-- Vectors that pass the comparison of an inner product have one type and one
    size. -/
theorem eq_of_compareSizes {u : Unit} (h : v.compareSizes w = .ok u) :
    w.dtype = v.dtype ∧ w.value.layout.extents = v.value.layout.extents := by
  obtain ⟨m, hm, h⟩ := bind_eq_ok_iff.mp h
  obtain ⟨n, hn, h⟩ := bind_eq_ok_iff.mp h
  rw [liftM_fault_eq_ok_iff] at hm hn
  by_cases heq : m = n
  · rw [if_neg (not_not.mpr heq)] at h
    exact ⟨Value.eq_of_compareTypes h, extents_eq_of_size hn (heq ▸ hm)⟩
  · rw [if_pos heq] at h
    cases h

end Vector

namespace Combination

variable {c : Combination}

/-- A combination whose comparison succeeds has operands that fit, whichever
    combination it is. -/
theorem fits_of_comparison {u : Unit} (h : c.comparison = .ok u) : c.Fits := by
  cases c with
  | assignScalar | scalar | accumulate | scalarVector | scalarPlusMatrix | scalarTimesMatrix =>
    exact Value.eq_of_compareTypes h
  | assignVector | vector | assignMatrix | matrix | assignReversed => exact Value.joins_of_compareOperands h
  | copyInto destination source =>
    obtain ⟨_, htypes, hextents⟩ := bind_eq_ok_iff.mp h
    exact ⟨Value.eq_of_compareTypes htypes, Value.eq_of_compareExtents hextents⟩
  | call function args =>
    exact (FunctionDeclaration.forall₂_of_checkArguments h).imp fun _ _ => ValueType.admits_of_check
  | dot | dotByLoop => exact Vector.eq_of_compareSizes h

/-- Operands that do not fit fail one of the comparisons. Which one it is
    depends on the operation. -/
theorem exists_comparison (h : ¬c.Fits) : ∃ failure, c.comparison = .error failure := by
  cases hcomparison : c.comparison with
  | ok u => exact (h (fits_of_comparison hcomparison)).elim
  | error failure => exact ⟨failure, rfl⟩

end Combination

end StagedArrays
