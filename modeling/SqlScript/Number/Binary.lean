/-!
# Binary numbers

A binary number is known by its sixty-four bits: a sign, an exponent and a significand.  Unlike the
value that they stand for, the bits tell the sign of what is no number.
-/

namespace SqlScript
namespace Number

/-- A binary number of sixty-four bits. -/
structure Binary where
  bits : UInt64
  deriving DecidableEq, Repr, Inhabited

namespace Binary

/-- The bit that makes a number negative. -/
def signBit : UInt64 :=
  0x8000000000000000

/-- The number whose bits, the sign aside, are `magnitude`. -/
def signed (negative : Bool) (magnitude : UInt64) : Binary where
  bits := if negative then signBit ||| magnitude else magnitude

/-- Infinity of either sign. -/
def infinity (negative : Bool) : Binary :=
  signed negative 0x7FF0000000000000

/-- What is no number, of either sign. -/
def notNumber (negative : Bool) : Binary :=
  signed negative 0x7FF8000000000000

/-- The value that the bits stand for. -/
def toFloat (number : Binary) : Float :=
  Float.ofBits number.bits

end Binary
end Number
end SqlScript
