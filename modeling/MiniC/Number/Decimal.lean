import MiniC.Number.Binary64

/-!
Whole numbers and decimal fractions, how they are written, and the nearest binary number to one.
-/

namespace MiniC.Number

/-! Signs and decimal digits, and whole numbers written with them. -/

/-- The number that a run of ASCII digits writes. -/
def ofDigits (digits : List Char) : Nat :=
  digits.foldl (fun value digit => 10 * value + (digit.toNat - '0'.toNat)) 0

/-- Takes an optional sign off a numeral: whether it was a minus, and the rest. -/
def splitSign : List Char → Bool × List Char
  | '-' :: rest => (true, rest)
  | '+' :: rest => (false, rest)
  | rest => (false, rest)

/-- Whether a text is a non-empty run of ASCII digits. -/
def isDigits (text : List Char) : Bool :=
  !text.isEmpty && text.all Char.isDigit

/-- An optional sign and digits, if there is at least one digit. -/
def readInt? (text : List Char) : Option Int :=
  match splitSign text with
  | (negative, digits) =>
    if isDigits digits then
      some (if negative then -(ofDigits digits : Int) else ofDigits digits)
    else none

/-- A numeral that fits in 64 bits with a sign. -/
def readInt64? (text : String) : Option Int64 := do
  let value ← readInt? text.toList
  if Int64.minValue.toInt ≤ value ∧ value ≤ Int64.maxValue.toInt then
    some (Int64.ofInt value)
  else none

/-! Fractions. -/

/-- The decimal fraction `digits · 10 ^ exponent`. -/
structure Decimal where
  digits : Nat
  exponent : Int
  deriving DecidableEq, Repr

/-- An exponent mark with a whole number after it; a text that ends here has exponent 0. -/
def readExponent? : List Char → Option Int
  | [] => some 0
  | c :: rest => if c = 'e' || c = 'E' then readInt? rest else none

namespace Decimal

/-- Digits with at most one point among them, at least one digit, and an optional exponent. -/
def read? (text : List Char) : Option Decimal := do
  let whole := text.takeWhile Char.isDigit
  let rest := text.dropWhile Char.isDigit
  let (fraction, rest) := match rest with
    | '.' :: rest => (rest.takeWhile Char.isDigit, rest.dropWhile Char.isDigit)
    | rest => ([], rest)
  if whole.isEmpty && fraction.isEmpty then none
  else
    let exponent ← readExponent? rest
    some ⟨ofDigits (whole ++ fraction), exponent - fraction.length⟩

/-- The quotient of two numbers, rounded to the nearest whole number, a tie to the even one. -/
def roundDiv (num den : Nat) : Nat :=
  let quotient := num / den
  let twice := 2 * (num % den)
  if twice < den then quotient
  else if den < twice then quotient + 1
  else quotient + quotient % 2

/-- The greatest power of two that is at most `num / den`. -/
def floorLog2 (num den : Nat) : Int :=
  let guess : Int := num.log2 - den.log2
  if den * Nat.pow 2 guess.toNat ≤ num * Nat.pow 2 (-guess).toNat then guess else guess - 1

/-- Exponent and fraction of the binary number nearest to `num / den`. Rounding up to the next
power of two carries into the exponent, and beyond the finite numbers lies infinity. -/
def nearestBits (num den : Nat) : Nat :=
  let scale := max (floorLog2 num den - 52) (-1074)
  let significand := roundDiv (num * Nat.pow 2 (-scale).toNat) (den * Nat.pow 2 scale.toNat)
  min ((scale + 1074).toNat * Binary64.leadingBit + significand) Binary64.infiniteBits

/-- The number of digits before the decimal point, negative if zeros follow the point. -/
def magnitude (x : Decimal) : Int :=
  (Nat.toDigits 10 x.digits).length + x.exponent

/-- Exponent and fraction of the nearest binary number. Magnitudes far beyond the range are decided
without forming the power of ten. -/
def bits (x : Decimal) : Nat :=
  if x.digits = 0 || x.magnitude < -330 then 0
  else if 310 < x.magnitude then Binary64.infiniteBits
  else nearestBits (x.digits * Nat.pow 10 x.exponent.toNat) (Nat.pow 10 (-x.exponent).toNat)

end Decimal

/-- Reads a floating point numeral: an optional sign, then a decimal numeral or, in any case, a
word for infinity or for no number. -/
def Binary64.read? (text : String) : Option Binary64 :=
  match splitSign text.toList with
  | (negative, rest) =>
    let word := String.ofList (rest.map Char.toLower)
    if word = "inf" || word = "infinity" then some (.infinity negative)
    else if word = "nan" then some .nan
    else (Decimal.read? rest).map fun x => .ofBits negative x.bits

end MiniC.Number
