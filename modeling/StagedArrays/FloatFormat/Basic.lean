namespace StagedArrays

/-- A binary float format. A word holds, from the top, a sign bit,
    `exponentBits` bits of biased exponent and `mantissaBits` bits of
    mantissa. -/
structure FloatFormat where
  exponentBits : Nat
  mantissaBits : Nat
  deriving DecidableEq

/-- What a word stands for. A finite value is `significand * 2 ^ exponent`; zero
    keeps its sign. -/
inductive FloatValue where
  | nan (negative : Bool)
  | infinite (negative : Bool)
  | finite (negative : Bool) (significand : Nat) (exponent : Int)
  deriving DecidableEq

/-- `m / 2 ^ s` rounded to the nearest integer, a half to the even neighbour.
    All rounding to a format comes down to it. -/
def roundShift (m s : Nat) : Nat :=
  let whole := m >>> s
  let rest := m % (1 <<< s)
  if 2 * rest > 1 <<< s ∨ (2 * rest = 1 <<< s ∧ whole % 2 = 1) then whole + 1 else whole

namespace FloatFormat

def double : FloatFormat := ⟨11, 52⟩

def single : FloatFormat := ⟨8, 23⟩

def brain : FloatFormat := ⟨8, 7⟩

def half : FloatFormat := ⟨5, 10⟩

/-- Bits of a word below the sign: those of the exponent and of the mantissa. -/
def magnitudeBits (format : FloatFormat) : Nat :=
  format.exponentBits + format.mantissaBits

/-- The sign bit of a word: set for negative values, among them the negative
    zero. -/
def signWord (format : FloatFormat) (negative : Bool) : Nat :=
  if negative then 1 <<< format.magnitudeBits else 0

/-- The exponent field with all its bits set, which no finite value has. -/
def fullExponent (format : FloatFormat) : Nat := (1 <<< format.exponentBits) - 1

/-- The magnitude of infinity: exponent bits all set, mantissa zero. Whatever
    rounds beyond the finite values becomes it. -/
def infinityWord (format : FloatFormat) : Nat := format.fullExponent <<< format.mantissaBits

/-- The exponent of the last place of the subnormal values. No value of the
    format has a finer last place. -/
def leastExponent (format : FloatFormat) : Int :=
  2 - ((1 <<< (format.exponentBits - 1) : Nat) : Int) - format.mantissaBits

/-- The not-a-number of a given sign: the top mantissa bit alone is set. -/
def nanWord (format : FloatFormat) (negative : Bool) : Nat :=
  format.signWord negative + format.infinityWord + 1 <<< (format.mantissaBits - 1)

/-- The exponent field of a word, as it is stored, with its bias. -/
def exponentField (format : FloatFormat) (word : Nat) : Nat :=
  word >>> format.mantissaBits % (1 <<< format.exponentBits)

/-- The mantissa field of a word, without the leading bit that normal values
    have. -/
def mantissaField (format : FloatFormat) (word : Nat) : Nat := word % (1 <<< format.mantissaBits)

/-- The value of a word. Of one that is no number only the sign is kept. -/
def decode (format : FloatFormat) (word : Nat) : FloatValue :=
  let negative := word >>> format.magnitudeBits % 2 = 1
  let biased := format.exponentField word
  let mantissa := format.mantissaField word
  if biased = format.fullExponent then
    if mantissa = 0 then .infinite negative else .nan negative
  else if biased = 0 then
    .finite negative mantissa format.leastExponent
  else
    .finite negative (mantissa + 1 <<< format.mantissaBits) (format.leastExponent + (biased - 1))

/-- The magnitude of the value nearest to `significand * 2 ^ exponent`, ties to
    even. A carry out of the mantissa moves into the exponent field by itself,
    and whatever passes the largest finite value is infinity. -/
def roundMagnitude (format : FloatFormat) (significand : Nat) (exponent : Int) : Nat :=
  if significand = 0 then 0
  else
    let natural := exponent + (Nat.log2 significand : Int) - format.mantissaBits
    let place := max natural format.leastExponent
    let rounded :=
      if place ≤ exponent then significand <<< (exponent - place).toNat
      else roundShift significand (place - exponent).toNat
    min (rounded + (place - format.leastExponent).toNat <<< format.mantissaBits)
      format.infinityWord

/-- The word nearest to a value. A not-a-number keeps its sign only, and a value
    too great becomes infinite. -/
def encode (format : FloatFormat) : FloatValue → Nat
  | .nan negative => format.nanWord negative
  | .infinite negative => format.signWord negative + format.infinityWord
  | .finite negative significand exponent =>
    format.signWord negative + format.roundMagnitude significand exponent

/-- The word of one format that is nearest to a word of another. A number loses
    nothing on its way to a wider format. -/
def convert (source target : FloatFormat) (word : Nat) : Nat :=
  target.encode (source.decode word)

/-- A value is finite when its exponent bits are not all set. -/
def isFinite (format : FloatFormat) (word : Nat) : Bool :=
  format.exponentField word ≠ format.fullExponent

end FloatFormat

namespace FloatValue

def isNan : FloatValue → Bool
  | nan _ => true
  | _ => false

/-- The integer a value stands for. -/
def ofInt (value : Int) : FloatValue :=
  .finite (value < 0) value.natAbs 0

/-- The value without its fraction, clamped to `[low, high]`; what is not a
    number counts as zero. -/
def truncateTo (low high : Int) : FloatValue → Int
  | nan _ => 0
  | infinite negative => if negative then low else high
  | finite negative significand exponent =>
    let magnitude : Nat :=
      if exponent < 0 then significand >>> (-exponent).toNat
      else significand <<< exponent.toNat
    let whole : Int := if negative then -magnitude else magnitude
    max low (min high whole)

end FloatValue

end StagedArrays
