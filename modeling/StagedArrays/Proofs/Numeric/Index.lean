import StagedArrays.Numeric.Arithmetic

namespace StagedArrays

namespace Word

/-- A number that a signed word can hold, as every position in host storage
    is. -/
def Signed (n : Nat) : Prop := (n : Int) ≤ Int64.maxValue.toInt

theorem signed_iff {n : Nat} : Signed n ↔ n < 9223372036854775808 := by
  simp only [Signed, Int64.toInt_maxValue]
  omega

theorem Signed.mono {m n : Nat} (h : Signed n) (hle : m ≤ n) : Signed m := by
  rw [signed_iff] at *
  omega

/-- A signed word is a machine word. It is below half of the bound. -/
theorem Signed.lt_bound {n : Nat} (h : Signed n) : n < bound := by
  rw [signed_iff] at h
  simp only [bound, UInt64.size]
  omega

end Word

namespace Numeric

open Word

theorem toInt_ofNat_of_signed {n : Nat} (h : Signed n) : (Int64.ofNat n).toInt = n := by
  rw [signed_iff] at h
  exact Int64.toInt_ofNat_of_lt (by omega)

/-- The immediate of a position reads back as that position. Larger words would
    become negative numbers. -/
theorem asIndex_ofIndex {n : Nat} (h : Signed n) : (ofIndex n).asIndex = .ok n := by
  simp [asIndex, toIndex?, toInt?, ofIndex, toInt_ofNat_of_signed h]

/-- What can be read as an index is a signed word. Negative numbers cannot be
    read so. -/
theorem signed_of_asIndex {x : Numeric} {n : Nat} (h : x.asIndex = .ok n) : Signed n := by
  unfold asIndex toIndex? at h
  cases x with
  | i64 value =>
    have hle := value.toInt_le
    simp only [toInt?] at h
    split at h
    · next heq =>
      split at heq
      · cases heq
        cases h
        simp only [Signed]
        omega
      · cases heq
    · cases h
  | i32 value =>
    have hle := value.toInt_le
    rw [Int32.toInt_maxValue] at hle
    simp only [toInt?] at h
    split at h
    · next heq =>
      split at heq
      · cases heq
        cases h
        rw [signed_iff]
        omega
      · cases heq
    · cases h
  | f64 | f32 | bf16 | f16 => simp [toInt?] at h

/-- A 64-bit integer that is a coordinate is the immediate of that
    coordinate. -/
theorem eq_ofIndex_of_asIndex {x : Numeric} {n : Nat} (hdtype : x.dtype = .i64)
    (h : x.asIndex = .ok n) : x = ofIndex n := by
  cases x with
  | i64 value =>
    unfold asIndex toIndex? at h
    simp only [toInt?] at h
    split at h
    · next heq =>
      split at heq
      · next hnonneg =>
        cases heq
        cases h
        simp only [ofIndex, i64.injEq, ← Int64.toInt_inj]
        rw [toInt_ofNat_of_signed]
        · omega
        · have hle := value.toInt_le
          simp only [Signed]
          omega
      · cases heq
    · cases h
  | f64 | f32 | bf16 | f16 | i32 => cases hdtype

/-- A result within the limits of a type passes its check. A quotient may fail
    for another reason. -/
theorem checked_of_mem {op : BinaryOp} {low high a b : Int} (hop : op ≠ .div)
    (hlow : low ≤ op.onInt a b) (hhigh : op.onInt a b ≤ high) :
    op.checked low high a b = .ok (op.onInt a b) := by
  simp [BinaryOp.checked, hop, hlow, hhigh]

/-- Positions add up exactly while the sum is a position. Above that the sum of
    the immediates overflows. -/
theorem binary_add_ofIndex {a b : Nat} (h : Signed (a + b)) :
    (ofIndex a).binary .add (ofIndex b) = .ok (ofIndex (a + b)) := by
  have ha : (Int64.ofNat a).toInt = a := toInt_ofNat_of_signed (h.mono (by omega))
  have hb : (Int64.ofNat b).toInt = b := toInt_ofNat_of_signed (h.mono (by omega))
  have hchecked : BinaryOp.add.checked Int64.minValue.toInt Int64.maxValue.toInt a b = .ok ((a : Int) + b) := by
    apply checked_of_mem (by decide)
    · rw [Int64.toInt_minValue]
      simp only [BinaryOp.onInt]
      omega
    · simp only [Signed] at h
      simp only [BinaryOp.onInt]
      omega
  simp only [Numeric.binary, ofIndex, ha, hb, hchecked]
  change Except.ok (i64 (Int64.ofInt ((a : Int) + b))) = _
  rw [← Int.natCast_add, Int64.ofInt_eq_ofNat]

/-- Positions multiply exactly while the product is a position. The second
    factor may be too large for a signed word when the first is zero. -/
theorem binary_mul_ofIndex {a b : Nat} (ha : Signed a) (h : Signed (a * b)) :
    (ofIndex a).binary .mul (ofIndex b) = .ok (ofIndex (a * b)) := by
  have hproduct : (Int64.ofNat a).toInt * (Int64.ofNat b).toInt = (a * b : Nat) := by
    rw [toInt_ofNat_of_signed ha]
    rcases Nat.eq_zero_or_pos a with rfl | hpos
    · simp
    · rw [toInt_ofNat_of_signed (h.mono (Nat.le_mul_of_pos_left b hpos)), Int.natCast_mul]
  have hchecked : BinaryOp.mul.checked Int64.minValue.toInt Int64.maxValue.toInt
      (Int64.ofNat a).toInt (Int64.ofNat b).toInt = .ok ((a * b : Nat) : Int) := by
    rw [← hproduct]
    apply checked_of_mem (by decide)
    · rw [Int64.toInt_minValue]
      simp only [BinaryOp.onInt, hproduct]
      omega
    · simp only [BinaryOp.onInt, hproduct]
      exact h
  simp only [Numeric.binary, ofIndex, hchecked]
  change Except.ok (i64 (Int64.ofInt ((a * b : Nat) : Int))) = _
  rw [Int64.ofInt_eq_ofNat]

/-- The result of an operation has the type of its left side, and so has the
    right side. -/
theorem dtype_of_binary {x y z : Numeric} {op : BinaryOp} (h : x.binary op y = .ok z) :
    y.dtype = x.dtype ∧ z.dtype = x.dtype := by
  cases x <;> cases y <;> simp only [Numeric.binary] at h
  case i64.i64 =>
    cases hresult : BinaryOp.checked op Int64.minValue.toInt Int64.maxValue.toInt _ _ <;>
      rw [hresult] at h <;> cases h
    exact ⟨rfl, rfl⟩
  case i32.i32 =>
    cases hresult : BinaryOp.checked op Int32.minValue.toInt Int32.maxValue.toInt _ _ <;>
      rw [hresult] at h <;> cases h
    exact ⟨rfl, rfl⟩
  all_goals cases h
  all_goals exact ⟨rfl, rfl⟩

end Numeric

end StagedArrays
