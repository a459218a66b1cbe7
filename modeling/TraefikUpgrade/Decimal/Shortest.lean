/-
# The shortest decimal that reads back

Among the decimals that are nearest to a binary64 number and to no other one, those with the fewest
digits are taken, and of them the nearest.

The decimals that read back fill the interval up to halfway to the two neighbours, with its ends if the
mantissa is even. For each count of digits only the two decimals around the number are tried.

Key definition: `shortest`.
-/
import TraefikUpgrade.Decimal.Binary

namespace TraefikUpgrade.Decimal

/-- The numbers around a positive binary64 number that read back as it, times a common denominator. -/
structure Interval where
  low : Nat
  value : Nat
  high : Nat
  den : Nat
  closed : Bool
deriving DecidableEq, Repr

/-- The interval of `mantissa * 2 ^ exponent`. The neighbour below a power of two is only half as far,
unless it has the least exponent. -/
def intervalOf (mantissa : Nat) (exponent : Int) : Interval :=
  let lowGap := if mantissa = Nat.pow 2 52 ∧ -1074 < exponent then 1 else 2
  let (unit, den) := scaled 1 4 (-exponent)
  ⟨(4 * mantissa - lowGap) * unit, 4 * mantissa * unit, (4 * mantissa + 2) * unit, den,
    mantissa % 2 == 0⟩

/-- Whether `digits * 10 ^ exponent` is in the interval. -/
def Interval.holds (i : Interval) (digits : Nat) (exponent : Int) : Bool :=
  let (d, den) := if 0 ≤ exponent then (digits * Nat.pow 10 exponent.toNat * i.den, 1)
    else (digits * i.den, Nat.pow 10 (-exponent).toNat)
  if i.closed then i.low * den ≤ d && d ≤ i.high * den else i.low * den < d && d < i.high * den

/-- The digits of the best decimal with the given exponent, if one reads back. -/
def Interval.digitsAt? (i : Interval) (exponent : Int) : Option Nat :=
  let (num, den) := if 0 ≤ exponent then (i.value, i.den * Nat.pow 10 exponent.toNat)
    else (i.value * Nat.pow 10 (-exponent).toNat, i.den)
  let best := roundHalfEven num den
  let other := if best = num / den then best + 1 else best - 1
  if i.holds best exponent then some best
  else if i.holds other exponent then some other
  else none

/-- The first exponent, going down from `exponent`, at which a decimal reads back, with its digits. -/
def Interval.search (i : Interval) : (count : Nat) → (exponent : Int) → Nat × Int
  | 0, exponent => ((i.digitsAt? exponent).getD 0, exponent)
  | count + 1, exponent =>
    match i.digitsAt? exponent with
    | some 0 | none => i.search count (exponent - 1)
    | some digits => (digits, exponent)

/-- Digits without zeros at the end, and the exponent that makes up for it. -/
def dropZeros : (fuel : Nat) → Nat → Int → Nat × Int
  | 0, digits, exponent => (digits, exponent)
  | fuel + 1, digits, exponent =>
    if digits ≠ 0 ∧ digits % 10 = 0 then dropZeros fuel (digits / 10) (exponent + 1)
    else (digits, exponent)

/-- The shortest decimal of a positive number `mantissa * 2 ^ exponent`, as digits and exponent. -/
def shortest (mantissa : Nat) (exponent : Int) : Nat × Int :=
  let i := intervalOf mantissa exponent
  -- a power of ten above the number, up to a factor of ten
  let top : Int := ((Nat.log2 mantissa : Int) + exponent) * 30103 / 100000 + 2
  let (digits, exponent) := i.search 24 top
  dropZeros 20 digits exponent

end TraefikUpgrade.Decimal
