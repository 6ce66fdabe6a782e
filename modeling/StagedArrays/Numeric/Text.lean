import StagedArrays.FloatFormat.Shortest
import StagedArrays.Numeric.Basic

namespace StagedArrays

namespace Decimal

/-- Digits with a point, and at least one digit on either side of it. -/
def positional (decimal : Decimal) : String :=
  let digits := toString decimal.digits
  if 0 ≤ decimal.exponent then
    digits ++ String.ofList (List.replicate decimal.exponent.toNat '0') ++ ".0"
  else
    let places := (-decimal.exponent).toNat
    let padded := List.replicate (places + 1 - digits.length) '0' ++ digits.toList
    String.ofList (padded.take (padded.length - places)) ++ "."
      ++ String.ofList (padded.drop (padded.length - places))

/-- The exponent of the first digit. -/
def magnitude (decimal : Decimal) : Int :=
  decimal.exponent + (digitCount decimal.digits : Int) - 1

/-- One digit, the others after a point if there are any, and the exponent. -/
def scientific (decimal : Decimal) : String :=
  let digits := (toString decimal.digits).toList
  let fraction := digits.drop 1
  String.ofList (digits.take 1) ++ (if fraction.isEmpty then "" else "." ++ String.ofList fraction)
    ++ "e" ++ toString decimal.magnitude

/-- Positional from a ten-thousandth up to below ten to the sixteenth, and with
    an exponent outside. -/
def text (decimal : Decimal) : String :=
  if -4 ≤ decimal.magnitude ∧ decimal.magnitude < 16 then decimal.positional
  else decimal.scientific

end Decimal

namespace FloatFormat

/-- The text of a word: the shortest decimal that reads back. -/
def text (format : FloatFormat) (word : Nat) : String :=
  match format.decode word with
  | .nan _ => "NaN"
  | .infinite negative => if negative then "-inf" else "inf"
  | .finite negative significand exponent =>
    (if negative then "-" else "") ++
      if significand = 0 then "0.0" else (format.shortest significand exponent).text

end FloatFormat

namespace Numeric

/-- The number alone; the half formats are written as the singles they equal. -/
def numberText : Numeric → String
  | f64 word => FloatFormat.double.text word.toNat
  | f32 word => FloatFormat.single.text word.toNat
  | bf16 word => FloatFormat.single.text (singleOfBrain word).toNat
  | f16 word => FloatFormat.single.text (singleOfHalf word).toNat
  | i64 value => toString value.toInt
  | i32 value => toString value.toInt

/-- An immediate as messages show it, with its element type. -/
def text (x : Numeric) : String := s!"{x.dtype.tag}({x.numberText})"

end Numeric

end StagedArrays
