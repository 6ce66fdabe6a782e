import StagedArrays.Numeric.Basic

namespace StagedArrays

namespace Written

/-- A number in lower-case hexadecimal, filled up with zeros. -/
def hex (digits n : Nat) : String :=
  let text := Nat.toDigits 16 n
  String.ofList (List.replicate (digits - text.length) '0' ++ text)

/-- The value of a hexadecimal digit. -/
def hexDigit? (c : Char) : Option Nat :=
  if '0' ≤ c ∧ c ≤ '9' then some (c.toNat - '0'.toNat)
  else if 'a' ≤ c ∧ c ≤ 'f' then some (c.toNat - 'a'.toNat + 10)
  else none

def hex? (text : String) : Option Nat :=
  text.toList.foldlM (fun n c => do return n * 16 + (← hexDigit? c)) 0

/-- The bits of a float. What is not a number is written the same whatever its
    bits. -/
def float (format : FloatFormat) (word : Nat) : String :=
  if (format.decode word).isNan then "nan" else hex ((format.magnitudeBits + 1) / 4) word

def float? (format : FloatFormat) (text : String) : Option Nat :=
  if text == "nan" then some (format.nanWord false) else hex? text

end Written

namespace Numeric

/-- The text of an element: the bits of a float in hexadecimal, an integer in
    decimal. Nothing is lost by it. -/
def written : Numeric → String
  | f64 word => Written.float .double word.toNat
  | f32 word => Written.float .single word.toNat
  | bf16 word => Written.float .brain word.toNat
  | f16 word => Written.float .half word.toNat
  | i64 value => toString value.toInt
  | i32 value => toString value.toInt

/-- The element of a type that a text stands for. The type has to be known,
    since texts do not tell it. -/
def ofWritten? (dtype : DType) (text : String) : Option Numeric :=
  match dtype with
  | .f64 => (Written.float? .double text).map fun word => f64 (.ofNat word)
  | .f32 => (Written.float? .single text).map fun word => f32 (.ofNat word)
  | .bf16 => (Written.float? .brain text).map fun word => bf16 (.ofNat word)
  | .f16 => (Written.float? .half text).map fun word => f16 (.ofNat word)
  | .i64 => text.toInt?.map fun value => i64 (.ofInt value)
  | .i32 => text.toInt?.map fun value => i32 (.ofInt value)

end Numeric

end StagedArrays
