import StagedArrays.Error

namespace StagedArrays

namespace BinaryOp

/-- The exact result of an integer operation. A quotient is truncated, and the
    limits of a type come in only afterwards. -/
def onInt : BinaryOp → Int → Int → Int
  | add, a, b => a + b
  | sub, a, b => a - b
  | mul, a, b => a * b
  | div, a, b => a.tdiv b

def onFloat : BinaryOp → Float → Float → Float
  | add, a, b => a + b
  | sub, a, b => a - b
  | mul, a, b => a * b
  | div, a, b => a / b

def onFloat32 : BinaryOp → Float32 → Float32 → Float32
  | add, a, b => a + b
  | sub, a, b => a - b
  | mul, a, b => a * b
  | div, a, b => a / b

/-- The exact integer result if it lies in `[low, high]`. A zero divisor is
    found before anything else. -/
def checked (op : BinaryOp) (low high a b : Int) : Except ValueError Int :=
  if op = div ∧ b = 0 then .error .divisionByZero
  else
    let result := op.onInt a b
    if low ≤ result ∧ result ≤ high then .ok result else .error (.integerOverflow op)

/-- The word that stands for what is not a number: that of the first operand
    that is none already, and otherwise the negative one. -/
def nanResult (format : FloatFormat) (a b : Nat) : Nat :=
  if (format.decode a).isNan then a
  else if (format.decode b).isNan then b
  else format.nanWord true

/-- A double operation on words. What is no number gets a word of its own, made
    of the operands. -/
def onDouble (op : BinaryOp) (a b : UInt64) : UInt64 :=
  let result := op.onFloat (.ofBits a) (.ofBits b)
  if result.isNaN then .ofNat (nanResult .double a.toNat b.toNat) else result.toBits

/-- A single operation on words. What is no number gets a word of its own, made
    of the operands. -/
def onSingle (op : BinaryOp) (a b : UInt32) : UInt32 :=
  let result := op.onFloat32 (.ofBits a) (.ofBits b)
  if result.isNaN then .ofNat (nanResult .single a.toNat b.toNat) else result.toBits

end BinaryOp

namespace Numeric

/-- Applies an operation with `a` on the left. The types have to agree; the half
    formats compute in single precision and round the result. -/
def binary (a : Numeric) (op : BinaryOp) (b : Numeric) : Except ValueError Numeric :=
  match a, b with
  | f64 x, f64 y => .ok (f64 (op.onDouble x y))
  | f32 x, f32 y => .ok (f32 (op.onSingle x y))
  | bf16 x, bf16 y => .ok (bf16 (brainOfSingle (op.onSingle (singleOfBrain x) (singleOfBrain y))))
  | f16 x, f16 y => .ok (f16 (halfOfSingle (op.onSingle (singleOfHalf x) (singleOfHalf y))))
  | i64 x, i64 y => do
    return i64 (.ofInt (← op.checked Int64.minValue.toInt Int64.maxValue.toInt x.toInt y.toInt))
  | i32 x, i32 y => do
    return i32 (.ofInt (← op.checked Int32.minValue.toInt Int32.maxValue.toInt x.toInt y.toInt))
  | a, b => .error (.typeMismatch a.dtype b.dtype)

end Numeric

end StagedArrays
