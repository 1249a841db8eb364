/-!
Binary floating point numbers of 64 bits, as their three fields. A finite number is
`significand · 2 ^ scale`; the greatest exponent is kept for infinities and for values that are no
number.
-/

namespace MiniC.Number

structure Binary64 where
  negative : Bool
  exponent : BitVec 11
  fraction : BitVec 52
  deriving DecidableEq, Repr

namespace Binary64

/-- The leading bit of a significand, which the fraction leaves out. -/
def leadingBit : Nat := 0x10000000000000

/-- The least magnitude above all finite ones, as exponent and fraction read together. -/
def infiniteBits : Nat := 2047 * leadingBit

/-- The number whose exponent and fraction, read together, are `bits`. Magnitudes are ordered as
these are. -/
def ofBits (negative : Bool) (bits : Nat) : Binary64 :=
  ⟨negative, .ofNat 11 (bits / leadingBit), .ofNat 52 bits⟩

def infinity (negative : Bool) : Binary64 := ofBits negative infiniteBits

def nan : Binary64 := ofBits false (infiniteBits + leadingBit / 2)

def isFinite (x : Binary64) : Bool := x.exponent != 2047

/-- The whole number that `scale` scales; numbers with the least exponent lack the leading bit. -/
def significand (x : Binary64) : Nat :=
  if x.exponent = 0 then x.fraction.toNat else leadingBit + x.fraction.toNat

/-- The power of two that scales the significand. -/
def scale (x : Binary64) : Int :=
  max x.exponent.toNat 1 - 1075

/-- Whether the next smaller magnitude is only half as far away as the next greater one. -/
def isLowEdge (x : Binary64) : Bool :=
  x.fraction == 0 && 1 < x.exponent.toNat

end Binary64

end MiniC.Number
