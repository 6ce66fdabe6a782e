import StagedArrays.DType
import StagedArrays.FloatFormat.Basic

namespace StagedArrays

/-- One immediate of any element type. Floats are kept as their words, so two
    immediates are equal exactly when all their bits are. -/
inductive Numeric where
  | f64 (word : UInt64)
  | f32 (word : UInt32)
  | bf16 (word : UInt16)
  | f16 (word : UInt16)
  | i64 (value : Int64)
  | i32 (value : Int32)
  deriving DecidableEq, Inhabited

namespace Numeric

/-- The element type of a number. It is that of the case that the number belongs
    to. -/
def dtype : Numeric → DType
  | f64 _ => .f64
  | f32 _ => .f32
  | bf16 _ => .bf16
  | f16 _ => .f16
  | i64 _ => .i64
  | i32 _ => .i32

/-- The zero of an element type; of a float, the positive one. Fresh storage is
    filled with it. -/
def zero : DType → Numeric
  | .f64 => f64 0
  | .f32 => f32 0
  | .bf16 => bf16 0
  | .f16 => f16 0
  | .i64 => i64 0
  | .i32 => i32 0

@[simp]
theorem dtype_zero (dtype : DType) : (zero dtype).dtype = dtype := by cases dtype <;> rfl

/-- The value of an immediate as a float value, exact for every element type.
    Rounding comes in only with a target. -/
def toFloatValue : Numeric → FloatValue
  | f64 word => FloatFormat.double.decode word.toNat
  | f32 word => FloatFormat.single.decode word.toNat
  | bf16 word => FloatFormat.brain.decode word.toNat
  | f16 word => FloatFormat.half.decode word.toNat
  | i64 value => FloatValue.ofInt value.toInt
  | i32 value => FloatValue.ofInt value.toInt

/-- The nearest double. -/
def toDouble (x : Numeric) : UInt64 :=
  match x with
  | f64 word => word
  | _ => .ofNat (FloatFormat.double.encode x.toFloatValue)

/-- The nearest single to a double. -/
def singleOfDouble (word : UInt64) : UInt32 :=
  .ofNat (FloatFormat.double.convert .single word.toNat)

def doubleOfSingle (word : UInt32) : UInt64 :=
  .ofNat (FloatFormat.single.convert .double word.toNat)

def singleOfBrain (word : UInt16) : UInt32 :=
  .ofNat (FloatFormat.brain.convert .single word.toNat)

def brainOfSingle (word : UInt32) : UInt16 :=
  .ofNat (FloatFormat.single.convert .brain word.toNat)

/-- Rounds a double to the brain format from its upper half: the lower
    thirty-two bits of a finite value are dropped first and do not break
    ties. -/
def brainOfDouble (word : UInt64) : UInt16 :=
  let kept := if FloatFormat.double.isFinite word.toNat then word.toNat >>> 32 <<< 32 else word.toNat
  .ofNat (FloatFormat.double.convert .brain kept)

def singleOfHalf (word : UInt16) : UInt32 :=
  .ofNat (FloatFormat.half.convert .single word.toNat)

def halfOfSingle (word : UInt32) : UInt16 :=
  .ofNat (FloatFormat.single.convert .half word.toNat)

/-- Converts to another element type by way of the nearest double; only the
    conversions between integers that lose nothing go directly. Floats become
    integers by truncation, clamped to the range. -/
def cast (x : Numeric) (target : DType) : Numeric :=
  let double := x.toDouble
  match target with
  | .f64 => f64 double
  | .f32 => f32 (singleOfDouble double)
  | .bf16 => bf16 (brainOfDouble double)
  | .f16 => f16 (halfOfSingle (singleOfDouble double))
  | .i64 =>
    match x with
    | i32 value => i64 value.toInt64
    | i64 value => i64 value
    | _ => i64 (.ofInt ((FloatFormat.double.decode double.toNat).truncateTo
        Int64.minValue.toInt Int64.maxValue.toInt))
  | .i32 =>
    match x with
    | i32 value => i32 value
    | _ => i32 (.ofInt ((FloatFormat.double.decode double.toNat).truncateTo
        Int32.minValue.toInt Int32.maxValue.toInt))

@[simp]
theorem dtype_cast (x : Numeric) (target : DType) : (x.cast target).dtype = target := by
  cases target <;> cases x <;> rfl

/-- The integer an integer immediate holds. -/
def toInt? : Numeric → Option Int
  | i64 value => some value.toInt
  | i32 value => some value.toInt
  | _ => none

/-- The immediate as a coordinate: a non-negative integer. -/
def toIndex? (x : Numeric) : Option Nat :=
  match x.toInt? with
  | some value => if 0 ≤ value then some value.toNat else none
  | none => none

/-- The 64-bit integer immediate of a coordinate or increment, reduced into
    range. -/
def ofIndex (index : Nat) : Numeric := i64 (.ofNat index)

/-- Equality as numbers: a not-a-number equals nothing, the two zeros are equal,
    and immediates of different types differ. -/
def sameNumber : Numeric → Numeric → Bool
  | f64 a, f64 b => Float.ofBits a == Float.ofBits b
  | f32 a, f32 b => Float32.ofBits a == Float32.ofBits b
  | bf16 a, bf16 b => Float32.ofBits (singleOfBrain a) == Float32.ofBits (singleOfBrain b)
  | f16 a, f16 b => Float32.ofBits (singleOfHalf a) == Float32.ofBits (singleOfHalf b)
  | i64 a, i64 b => a == b
  | i32 a, i32 b => a == b
  | _, _ => false

/-- Whether an immediate is a single or double that is infinite or not a
    number. -/
def isUnwritable : Numeric → Bool
  | f64 word => !FloatFormat.double.isFinite word.toNat
  | f32 word => !FloatFormat.single.isFinite word.toNat
  | _ => false

end Numeric

end StagedArrays
