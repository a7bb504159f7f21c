/-! # 64-bit floating-point numbers

A number is kept as its bits, so that equality is decidable and says that two numbers are written
alike: the two zeros differ.
-/

namespace ConnectionBroker

/-- A 64-bit floating-point number, by its bits. -/
structure Binary64 where
  bits : UInt64
  deriving DecidableEq, Inhabited

namespace Binary64

/-- The number that the arithmetic of the machine computed. -/
def ofFloat (x : Float) : Binary64 :=
  ⟨x.toBits⟩

def isNegative (x : Binary64) : Bool :=
  x.bits >>> 63 == 1

/-- The exponent as stored, from 0 to 2047. -/
def storedExponent (x : Binary64) : Nat :=
  ((x.bits >>> 52) &&& 0x7FF).toNat

/-- The fraction as stored, 52 bits. -/
def storedFraction (x : Binary64) : Nat :=
  (x.bits &&& 0xFFFFFFFFFFFFF).toNat

/-- The integer `m` of the magnitude `m * 2 ^ (e - 1074)`. -/
def significand (x : Binary64) : Nat :=
  if x.storedExponent = 0 then x.storedFraction else 0x10000000000000 + x.storedFraction

/-- The number `e` of the magnitude `m * 2 ^ (e - 1074)`. -/
def scale (x : Binary64) : Nat :=
  x.storedExponent - 1

/-- Whether the next smaller number is only half a step away: at each power of two but the
least. -/
def isBoundary (x : Binary64) : Bool :=
  x.storedFraction == 0 && 1 < x.storedExponent

end Binary64

end ConnectionBroker
