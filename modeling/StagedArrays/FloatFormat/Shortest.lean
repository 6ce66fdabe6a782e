import StagedArrays.FloatFormat.Basic

namespace StagedArrays

/-- The number `digits * 10 ^ exponent`. -/
structure Decimal where
  digits : Nat
  exponent : Int
  deriving DecidableEq

namespace Decimal

/-- Moves the zeros at the end of the digits into the exponent. The number stays
    the same. -/
def trim (decimal : Decimal) : Decimal :=
  go (Nat.log2 decimal.digits + 1) decimal.digits decimal.exponent
where
  go : Nat → Nat → Int → Decimal
    | 0, digits, exponent => ⟨digits, exponent⟩
    | fuel + 1, digits, exponent =>
      if digits ≠ 0 ∧ digits % 10 = 0 then go fuel (digits / 10) (exponent + 1)
      else ⟨digits, exponent⟩

/-- How many decimal digits a number has; zero has one. The place of the first
    digit is found by it. -/
def digitCount (n : Nat) : Nat := (Nat.toDigits 10 n).length

end Decimal

/-- The real numbers that a format rounds to one value, all over `2 ^ scale`:
    `centre` is the value itself, and the ends belong iff `closed`. -/
structure RoundingInterval where
  low : Nat
  centre : Nat
  high : Nat
  scale : Int
  closed : Bool

namespace RoundingInterval

/-- The interval around `significand * 2 ^ exponent`. Below a power of two the
    next value is half as far away, except at the bottom of the range. -/
def of (format : FloatFormat) (significand : Nat) (exponent : Int) : RoundingInterval :=
  let narrow := significand = 1 <<< format.mantissaBits ∧ format.leastExponent < exponent
  { low := 4 * significand - if narrow then 1 else 2
    centre := 4 * significand
    high := 4 * significand + 2
    scale := exponent - 2
    closed := significand % 2 = 0 }

/-- The centre as a fraction of naturals, so that digits can be found by
    division. -/
def fraction (interval : RoundingInterval) : Nat × Nat :=
  (interval.centre <<< interval.scale.toNat, 1 <<< (-interval.scale).toNat)

/-- The exponent of the first decimal digit of the centre. The digits to be
    tried begin there. -/
def leadingExponent (interval : RoundingInterval) : Int :=
  let (num, den) := interval.fraction
  if den ≤ num then (Decimal.digitCount (num / den) : Int) - 1
  else -(Decimal.digitCount ((den + num - 1) / num - 1) : Int)

/-- A bound of the interval in a unit small enough that multiples of
    `10 ^ place` are whole as well. -/
def scaled (interval : RoundingInterval) (place : Int) (bound : Nat) : Nat :=
  bound <<< interval.scale.toNat * Nat.pow 10 (-place).toNat

/-- The number `n * 10 ^ place` in the unit of `scaled`. -/
def candidate (interval : RoundingInterval) (place : Int) (n : Nat) : Nat :=
  (n * Nat.pow 10 place.toNat) <<< (-interval.scale).toNat

/-- Whether `n * 10 ^ place` rounds to the centre. The ends of the interval
    count if it is closed. -/
def admits (interval : RoundingInterval) (place : Int) (n : Nat) : Bool :=
  let x := interval.candidate place n
  let low := interval.scaled place interval.low
  let high := interval.scaled place interval.high
  if interval.closed then low ≤ x ∧ x ≤ high else low < x ∧ x < high

/-- The admitted multiple of `10 ^ place` nearest to the centre, if there is
    one. Of two equally near the larger is taken. -/
def nearestOn (interval : RoundingInterval) (place : Int) : Option Nat :=
  let centre := interval.scaled place interval.centre
  let unit := interval.candidate place 1
  let below := centre / unit
  let above := below + 1
  match interval.admits place below, interval.admits place above with
  | true, true =>
    if centre - interval.candidate place below < interval.candidate place above - centre
    then some below else some above
  | true, false => some below
  | false, true => some above
  | false, false => none

/-- Tries grids of one digit, two digits, and so on; the first with an admitted
    point gives the shortest decimal. -/
def search (interval : RoundingInterval) : Nat → Int → Decimal
  | 0, place => ⟨interval.centre, place⟩
  | fuel + 1, place =>
    match interval.nearestOn place with
    | some digits => Decimal.trim ⟨digits, place⟩
    | none => interval.search fuel (place - 1)

end RoundingInterval

namespace FloatFormat

/-- The decimal with the fewest digits that reads back as a positive value, and
    of those the nearest. Seventeen digits are enough for every format here. -/
def shortest (format : FloatFormat) (significand : Nat) (exponent : Int) : Decimal :=
  let interval := RoundingInterval.of format significand exponent
  interval.search 20 interval.leadingExponent

end FloatFormat

end StagedArrays
