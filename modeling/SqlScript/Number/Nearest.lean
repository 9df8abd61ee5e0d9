import SqlScript.Number.Binary

/-!
# Decimal numbers in binary

A decimal number is rounded to the nearest binary number with fifty-three significant bits; of two
equally near ones the even one is taken.  The work is done in exact integers.
-/

namespace SqlScript
namespace Number

/-- The quotient rounded to the nearest integer, a half to the even one. -/
def roundDiv (numerator denominator : Nat) : Nat :=
  let quotient := numerator / denominator
  let rest := numerator % denominator
  if denominator < 2 * rest || (2 * rest == denominator && quotient % 2 == 1) then quotient + 1
  else quotient

/-- The bits of positive infinity. -/
def infinityBits : Nat :=
  (Binary.infinity false).bits.toNat

/-- The exponent of the last bit of the smallest numbers. -/
def leastExponent : Int :=
  -1074

/-- No significand reaches fifty-four bits. -/
def significandBound : Nat :=
  0x20000000000000

/-- The power of two that the last significant bit of a positive quotient counts for. -/
def unitExponent (numerator denominator : Nat) : Int :=
  let guess := (numerator.log2 : Int) - denominator.log2 - 53
  let scaled :=
    if 0 ≤ guess then numerator / (denominator <<< guess.toNat)
    else (numerator <<< (-guess).toNat) / denominator
  max leastExponent (if significandBound ≤ scaled then guess + 1 else guess)

/-- The bits of the number nearest to a positive quotient. -/
def quotientBits (numerator denominator : Nat) : Nat :=
  let unit := unitExponent numerator denominator
  let significand :=
    if 0 ≤ unit then roundDiv numerator (denominator <<< unit.toNat)
    else roundDiv (numerator <<< (-unit).toNat) denominator
  min infinityBits (((unit - leastExponent).toNat <<< 52) + significand)

/-- A power of ten above every finite number. -/
def decimalRange : Nat :=
  400

/-- The bits of the number nearest to `mantissa` times ten to the power of `exponent`. -/
def decimalBits (mantissa : Nat) (exponent : Int) : Nat :=
  if mantissa = 0 then 0
  else if (decimalRange : Int) < exponent then infinityBits
  else if exponent < -((decimalRange + mantissa.log2 : Nat) : Int) then 0
  else if 0 ≤ exponent then quotientBits (mantissa * Nat.pow 10 exponent.toNat) 1
  else quotientBits mantissa (Nat.pow 10 (-exponent).toNat)

/-- The number nearest to `mantissa` times ten to the power of `exponent`, with its sign. -/
def nearest (negative : Bool) (mantissa : Nat) (exponent : Int) : Binary :=
  .signed negative (UInt64.ofNat (decimalBits mantissa exponent))

end Number
end SqlScript
