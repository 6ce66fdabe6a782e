import StagedArrays.Context.Builder
import StagedArrays.Proofs.Algebra.Passes
import StagedArrays.Proofs.Emission.Operand

namespace StagedArrays

namespace BinaryOp

variable {op : BinaryOp} {a b n low high : Int} {cause : ValueError}

/-- The exact result of an operation. A quotient is the one whose remainder is
    smaller than the divisor and has the sign of the dividend; there is none by
    zero. -/
def IsExact : BinaryOp → Int → Int → Int → Prop
  | add, a, b, n => n = a + b
  | sub, a, b, n => n = a - b
  | mul, a, b, n => n = a * b
  | div, a, b, n => ∃ remainder, a = b * n + remainder ∧ remainder.natAbs < b.natAbs ∧
      (0 ≤ a → 0 ≤ remainder) ∧ (a ≤ 0 → remainder ≤ 0)

/-- The exact quotient is the one rounded toward zero, and there is none by
    zero. -/
theorem isExact_div_iff : div.IsExact a b n ↔ b ≠ 0 ∧ n = a.tdiv b := by
  constructor
  · rintro ⟨remainder, heq, hlt, hnonneg, hnonpos⟩
    have hne : b ≠ 0 := by
      rintro rfl
      simp at hlt
    refine ⟨hne, ?_⟩
    by_cases ha : 0 ≤ a
    · have hunique := (Int.tdiv_tmod_unique ha hne).mpr ⟨(Int.add_comm _ _).trans heq.symm, hnonneg ha, by omega⟩
      exact hunique.1.symm
    · have ha : a ≤ 0 := by omega
      have hunique := (Int.tdiv_tmod_unique' ha hne).mpr ⟨(Int.add_comm _ _).trans heq.symm, by omega, hnonpos ha⟩
      exact hunique.1.symm
  · rintro ⟨hne, rfl⟩
    refine ⟨a.tmod b, (Int.mul_tdiv_add_tmod a b).symm, ?_, Int.tmod_nonneg b, fun ha => ?_⟩
    · rw [Int.natAbs_tmod]
      exact Nat.mod_lt _ (Int.natAbs_pos.mpr hne)
    · exact ((Int.tdiv_tmod_unique' ha hne).mp ⟨rfl, rfl⟩).2.2

/-- There is exactly one exact result, but none of a division by zero. -/
theorem isExact_iff : op.IsExact a b n ↔ ¬(op = div ∧ b = 0) ∧ n = op.onInt a b := by
  cases op with
  | add | sub | mul => simp [IsExact, onInt]
  | div => simp [isExact_div_iff, onInt]

/-- A checked operation succeeds exactly if the exact result is within the
    limits of the type. -/
theorem checked_eq_ok_iff :
    op.checked low high a b = .ok n ↔ op.IsExact a b n ∧ low ≤ n ∧ n ≤ high := by
  rw [isExact_iff, checked]
  by_cases hzero : op = div ∧ b = 0
  · simp [hzero]
  · by_cases hrange : low ≤ op.onInt a b ∧ op.onInt a b ≤ high
    · simp only [hzero, hrange, if_true, if_false, and_self, not_false_eq_true, true_and, Except.ok.injEq]
      constructor
      · rintro rfl
        exact ⟨rfl, hrange⟩
      · exact fun h => h.1.symm
    · simp only [hzero, hrange, if_false, not_false_eq_true, true_and, reduceCtorEq, false_iff]
      rintro ⟨rfl, h⟩
      exact hrange h

/-- When a checked operation fails, and with which error. There is no third
    way. -/
theorem checked_eq_error_iff :
    op.checked low high a b = .error cause ↔
      (cause = .divisionByZero ∧ op = div ∧ b = 0) ∨
      (cause = .integerOverflow op ∧ ∃ n, op.IsExact a b n ∧ ¬(low ≤ n ∧ n ≤ high)) := by
  simp only [isExact_iff, checked]
  by_cases hzero : op = div ∧ b = 0
  · simp [hzero, eq_comm]
  · by_cases hrange : low ≤ op.onInt a b ∧ op.onInt a b ≤ high
    · simp [hzero, hrange]
    · simp [hzero, hrange, eq_comm]

end BinaryOp

namespace DType

/-- The least and the greatest integer of an integer type. -/
def limits? : DType → Option (Int × Int)
  | i64 => some (-2 ^ 63, 2 ^ 63 - 1)
  | i32 => some (-2 ^ 31, 2 ^ 31 - 1)
  | _ => none

/-- An integer that some immediate of the type stands for. -/
def Represents (dtype : DType) (n : Int) : Prop := ∃ x : Numeric, x.dtype = dtype ∧ x.toInt? = some n

end DType

namespace Numeric

variable {z : Numeric} {dtype : DType} {low high n : Int}

/-- The immediate of an integer type that stands for an integer within its
    limits. -/
def ofInt (dtype : DType) (n : Int) : Numeric :=
  match dtype with
  | .i64 => i64 (.ofInt n)
  | .i32 => i32 (.ofInt n)
  | dtype => zero dtype

/-- An integer within the limits of a type is represented exactly. -/
theorem toInt?_ofInt (hlimits : dtype.limits? = some (low, high)) (hlow : low ≤ n) (hhigh : n ≤ high) :
    (ofInt dtype n).dtype = dtype ∧ (ofInt dtype n).toInt? = some n := by
  cases dtype with
  | i64 =>
    cases hlimits
    exact ⟨rfl, congrArg some (Int64.toInt_ofInt_of_le hlow (by omega))⟩
  | i32 =>
    cases hlimits
    exact ⟨rfl, congrArg some (Int32.toInt_ofInt_of_le hlow (by omega))⟩
  | f64 | f32 | bf16 | f16 => cases hlimits

/-- A number of an integer type is what its integer is represented by. So the
    representation is unique. -/
theorem eq_ofInt_of_toInt? (hlimits : z.dtype.limits? = some (low, high)) (h : z.toInt? = some n) :
    z = ofInt z.dtype n ∧ low ≤ n ∧ n ≤ high := by
  cases z with
  | i64 value =>
    cases hlimits
    cases h
    have hlt := value.toInt_lt
    exact ⟨congrArg i64 value.ofInt_toInt.symm, value.le_toInt, by omega⟩
  | i32 value =>
    cases hlimits
    cases h
    have hlt := value.toInt_lt
    exact ⟨congrArg i32 value.ofInt_toInt.symm, value.le_toInt, by omega⟩
  | f64 | f32 | bf16 | f16 => cases h

end Numeric

/-- The immediates of an integer type are the integers within its limits. The
    other types have no limits of this kind. -/
theorem DType.represents_iff {dtype : DType} {low high n : Int} (hlimits : dtype.limits? = some (low, high)) :
    dtype.Represents n ↔ low ≤ n ∧ n ≤ high := by
  constructor
  · rintro ⟨x, rfl, hx⟩
    exact (Numeric.eq_ofInt_of_toInt? hlimits hx).2
  · rintro ⟨hlow, hhigh⟩
    exact ⟨.ofInt dtype n, Numeric.toInt?_ofInt hlimits hlow hhigh⟩

namespace Numeric

variable {x y z : Numeric} {a b : Int}

/-- The operations on integers are the checked ones within the limits of the
    common type. -/
theorem binary_eq_map_checked (op : BinaryOp) (hdtype : x.dtype = y.dtype) (ha : x.toInt? = some a)
    (hb : y.toInt? = some b) : ∃ low high, x.dtype.limits? = some (low, high) ∧
      x.binary op y = (op.checked low high a b).map (ofInt x.dtype) := by
  cases x <;> cases ha <;> cases y <;> cases hb <;> cases hdtype
  all_goals
    refine ⟨_, _, rfl, ?_⟩
    rw [binary]
    simp only [Int64.toInt_minValue, Int64.toInt_maxValue, Int32.toInt_minValue, Int32.toInt_maxValue]
    rw [bind_pure_comp]
    rfl

/-- Integers of one type give their exact result, as far as the type has it. A
    quotient is rounded towards zero. -/
theorem binary_eq_ok_iff (op : BinaryOp) (hdtype : x.dtype = y.dtype) (ha : x.toInt? = some a)
    (hb : y.toInt? = some b) :
    x.binary op y = .ok z ↔ z.dtype = x.dtype ∧ ∃ n, z.toInt? = some n ∧ op.IsExact a b n := by
  obtain ⟨low, high, hlimits, heq⟩ := binary_eq_map_checked op hdtype ha hb
  rw [heq]
  constructor
  · intro h
    cases hchecked : op.checked low high a b with
    | error cause => simp [hchecked, Except.map] at h
    | ok n =>
      obtain ⟨hexact, hlow, hhigh⟩ := BinaryOp.checked_eq_ok_iff.mp hchecked
      obtain ⟨hdtype, hn⟩ := toInt?_ofInt hlimits hlow hhigh
      rw [hchecked] at h
      cases h
      exact ⟨hdtype, n, hn, hexact⟩
  · rintro ⟨hz, n, hn, hexact⟩
    obtain ⟨hofInt, hrange⟩ := eq_ofInt_of_toInt? (hz ▸ hlimits) hn
    rw [BinaryOp.checked_eq_ok_iff.mpr ⟨hexact, hrange⟩, hofInt, hz]
    rfl

/-- There is no other reason to refuse integers of one type than a zero divisor
    or an exact result that the type does not have. -/
theorem binary_eq_error_iff (op : BinaryOp) {cause : ValueError} (hdtype : x.dtype = y.dtype)
    (ha : x.toInt? = some a) (hb : y.toInt? = some b) :
    x.binary op y = .error cause ↔
      (cause = .divisionByZero ∧ op = .div ∧ b = 0) ∨
      (cause = .integerOverflow op ∧ ∃ n, op.IsExact a b n ∧ ¬x.dtype.Represents n) := by
  obtain ⟨low, high, hlimits, heq⟩ := binary_eq_map_checked op hdtype ha hb
  simp only [DType.represents_iff hlimits, ← BinaryOp.checked_eq_error_iff, heq]
  cases op.checked low high a b with
  | error found => simp [Except.map]
  | ok n => simp [Except.map]

end Numeric

namespace Emitter

/-- Two immediates are combined at once, and nothing is recorded. What is an
    error directly is one here, with the same cause. -/
theorem runFrom_binaryOperand_constant (op : BinaryOp) (x y : Numeric) (emitter : Emitter) :
    (binaryOperand op (.constant x) (.constant y)).runFrom emitter =
      match x.binary op y with
      | .ok z => (.ok (.constant z), emitter)
      | .error cause => (.error (.error cause), emitter) := by
  rw [binaryOperand, Stateful.runFrom_bind, Stateful.runFrom_liftM]
  cases x.binary op y with
  | error cause => rfl
  | ok z => rfl

end Emitter

namespace Instruction

/-- An instruction that combines two operands which have contents. -/
theorem runFrom_binary (call : String → HostFunction) (output : RegisterId) (op : BinaryOp) {a b : Operand}
    {x y : Numeric} {running : Running} (ha : running.frame.operand a = .ok x)
    (hb : running.frame.operand b = .ok y) :
    ((binary output op a b).run call).runFrom running =
      match x.binary op y with
      | .ok z => (.ok (), ⟨running.frame.assign output z, running.heap⟩)
      | .error cause => (.error (.error cause), running) := by
  have hx : (RunM.operand a).runFrom running = (.ok x, running) := by simp [ha]
  have hy : (RunM.operand b).runFrom running = (.ok y, running) := by simp [hb]
  rw [run, Stateful.runFrom_bind_of_ok hx, Stateful.runFrom_bind_of_ok hy, Stateful.runFrom_bind,
    Stateful.runFrom_liftM]
  cases x.binary op y with
  | error cause => rfl
  | ok z => rfl

end Instruction

namespace Numeric

/-- Integers of one type are combined exactly or refused: a zero divisor by
    itself, and anything else just where the type does not have the exact
    result. Types are never mixed. A recorded instruction has the outcome that
    its operands have when they are combined at once. -/
theorem binary_exact (op : BinaryOp) (x y : Numeric) :
    (∀ a b, x.dtype = y.dtype → x.toInt? = some a → y.toInt? = some b →
      (∀ z, x.binary op y = .ok z ↔ z.dtype = x.dtype ∧ ∃ n, z.toInt? = some n ∧ op.IsExact a b n) ∧
      (∀ cause, x.binary op y = .error cause ↔
        (cause = .divisionByZero ∧ op = .div ∧ b = 0) ∨
        (cause = .integerOverflow op ∧ ∃ n, op.IsExact a b n ∧ ¬x.dtype.Represents n))) ∧
    (x.dtype ≠ y.dtype → x.binary op y = .error (.typeMismatch x.dtype y.dtype)) ∧
    (∀ (call : String → HostFunction) (emitter : Emitter) (running : Running) (output : RegisterId)
        (a b : Operand), running.frame.operand a = .ok x → running.frame.operand b = .ok y →
      let folded := (Emitter.binaryOperand op (.constant x) (.constant y)).runFrom emitter
      let executed := ((Instruction.binary output op a b).run call).runFrom running
      match x.binary op y with
      | .ok z =>
        folded = (.ok (.constant z), emitter) ∧
          executed = (.ok (), ⟨running.frame.assign output z, running.heap⟩)
      | .error cause => folded = (.error (.error cause), emitter) ∧ executed = (.error (.error cause), running)) := by
  refine ⟨fun a b hdtype ha hb => ?_, fun hne => ?_, fun call emitter running output a b ha hb => ?_⟩
  · exact ⟨fun z => binary_eq_ok_iff op hdtype ha hb, fun cause => binary_eq_error_iff op hdtype ha hb⟩
  · exact binary_of_dtype_ne op (Ne.symm hne)
  · dsimp only
    rw [Emitter.runFrom_binaryOperand_constant, Instruction.runFrom_binary call output op ha hb]
    cases x.binary op y with
    | error cause => exact ⟨rfl, rfl⟩
    | ok z => exact ⟨rfl, rfl⟩

/-- The least integer has no quotient by minus one, and quotients are truncated
    towards zero. -/
theorem binary_exact_quotients :
    (i64 .minValue).binary .div (i64 (-1)) = .error (.integerOverflow .div) ∧
    (i32 (-7)).binary .div (i32 2) = .ok (i32 (-3)) ∧
    (i32 1).binary .div (i64 1) = .error (.typeMismatch .i32 .i64) ∧
    (Emitter.binaryOperand .div (.constant (i64 .minValue)) (.constant (i64 (-1)))).runFrom default =
      (.error (.error (.integerOverflow .div)), default) := by
  have hleast : (i64 .minValue).binary .div (i64 (-1)) = .error (.integerOverflow .div) := by
    have hexact := (binary_exact .div (i64 .minValue) (i64 (-1))).1 (-2 ^ 63) (-1) rfl (by decide) (by decide)
    refine (hexact.2 _).mpr (.inr ⟨rfl, 2 ^ 63, ?_, ?_⟩)
    · exact ⟨0, by decide⟩
    · rw [DType.represents_iff rfl]
      decide
  refine ⟨hleast, ?_, (binary_exact .div (i32 1) (i64 1)).2.1 (by decide), ?_⟩
  · have hexact := (binary_exact .div (i32 (-7)) (i32 2)).1 (-7) 2 rfl (by decide) (by decide)
    exact (hexact.1 _).mpr ⟨rfl, -3, by decide, -1, by decide⟩
  · have hfolded := (binary_exact .div (i64 .minValue) (i64 (-1))).2.2 (fun _ _ => .fail .divisionByZero)
      default ⟨{}, default⟩ ⟨0⟩ (.constant _) (.constant _) rfl rfl
    rw [hleast] at hfolded
    exact hfolded.1

end Numeric

end StagedArrays
