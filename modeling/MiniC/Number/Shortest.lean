import MiniC.Number.Decimal

/-!
The shortest decimal text of a binary number: the fewest digits that read back as the same number,
and of those the nearest to it.
-/

namespace MiniC.Number

/-- The numbers that round to one binary number, on a common scale: the number itself and the ends
of its interval, which belong to it or not. -/
structure Interval where
  low : Nat
  value : Nat
  high : Nat
  closed : Bool

/-- Whether `x` rounds to the number the interval belongs to. -/
def Interval.has (interval : Interval) (x : Nat) : Bool :=
  if interval.closed then interval.low ≤ x && x ≤ interval.high
  else interval.low < x && x < interval.high

/-- The neighbour of the value on the grid of step `step` that lies in the interval, in steps. Of
two the nearer is taken, of two equally near ones the upper. -/
def Interval.onGrid? (interval : Interval) (step : Nat) : Option Nat :=
  let below := interval.value / step
  let rest := interval.value % step
  match interval.has (below * step), interval.has ((below + 1) * step) with
  | true, true => some (if 2 * rest < step then below else below + 1)
  | true, false => some below
  | false, true => some (below + 1)
  | false, false => none

/-- The value's neighbour on the coarsest grid of powers of ten, from `10 ^ places` down, that meets
the interval. The finest grid holds the value itself. -/
def Interval.shortest (interval : Interval) : (places : Nat) → Decimal
  | 0 => ⟨interval.value, 0⟩
  | places + 1 =>
    match interval.onGrid? (Nat.pow 10 (places + 1)) with
    | some digits => ⟨digits, places + 1⟩
    | none => interval.shortest places

namespace Binary64

/-- The interval of a finite number in quarters of its last place, as whole multiples of a power
of ten, and the exponent of that power. The ends round to the even significand. -/
def interval (x : Binary64) : Interval × Int :=
  let quarter := x.scale - 2
  let unit := if 0 ≤ quarter then Nat.pow 2 quarter.toNat else Nat.pow 5 (-quarter).toNat
  let centre := 4 * x.significand
  let below := if x.isLowEdge then 1 else 2
  (⟨(centre - below) * unit, centre * unit, (centre + 2) * unit, x.significand % 2 == 0⟩,
    min quarter 0)

end Binary64

/-- Drops trailing zeros of the digits, at most `fuel` of them. -/
def Decimal.trim : (fuel : Nat) → Decimal → Decimal
  | 0, x => x
  | fuel + 1, x => if x.digits % 10 = 0 then trim fuel ⟨x.digits / 10, x.exponent + 1⟩ else x

/-- The shortest decimal that reads back as the finite positive magnitude of `x`. -/
def Binary64.shortest (x : Binary64) : Decimal :=
  let (interval, exponent) := x.interval
  let places := (Nat.toDigits 10 interval.value).length
  let found := interval.shortest places
  Decimal.trim places ⟨found.digits, found.exponent + exponent⟩

/-- How a decimal is written: with a point and at least one digit on either side of it if the
leading digit stands between the fourth place after the point and the sixteenth before it, and with
an exponent otherwise. -/
def Decimal.text (x : Decimal) : String :=
  let digits := Nat.toDigits 10 x.digits
  let lead := x.exponent + digits.length - 1
  let written :=
    if lead < -4 || 16 ≤ lead then
      let fraction := if digits.tail.isEmpty then [] else '.' :: digits.tail
      digits.take 1 ++ fraction ++ 'e' :: (toString lead).toList
    else if 0 ≤ x.exponent then
      digits ++ List.replicate x.exponent.toNat '0' ++ ['.', '0']
    else if 0 ≤ lead then
      digits.take (lead + 1).toNat ++ '.' :: digits.drop (lead + 1).toNat
    else
      ['0', '.'] ++ List.replicate (-lead - 1).toNat '0' ++ digits
  String.ofList written

/-- The text of a floating point number. Both zeros keep their sign. -/
def Binary64.text (x : Binary64) : String :=
  let sign := if x.negative then "-" else ""
  if x.isFinite then
    sign ++ if x.significand = 0 then "0.0" else x.shortest.text
  else if x.fraction = 0 then sign ++ "inf"
  else "NaN"

end MiniC.Number
