/-
# Numbers in binary64

A finite binary64 number is a whole number of up to 53 bits times a power of two. `nearest` gives the
one that is nearest to a fraction; halfway between two, the one whose whole number is even.

Key definitions: `Binary64`, `roundHalfEven`, `nearest`, `ofDecimal`.
-/
namespace TraefikUpgrade.Decimal

/-- A binary64 number. A finite one is `mantissa * 2 ^ exponent`; the mantissa is below `2 ^ 53`, and
below `2 ^ 52` only with the least exponent, -1074. -/
inductive Binary64 where
  | finite (negative : Bool) (mantissa : Nat) (exponent : Int)
  | infinite (negative : Bool)
  | nan
deriving DecidableEq, Repr

namespace Binary64

/-- The number zero. -/
def zero (negative : Bool) : Binary64 := .finite negative 0 (-1074)

def isFinite : Binary64 → Bool
  | .finite .. => true
  | _ => false

/-- Whether two numbers are taken for the same: zero has no sign, and there is only one that is no
number. -/
def same : Binary64 → Binary64 → Bool
  | .finite n m e, .finite n' m' e' => m == m' && e == e' && (n == n' || m == 0)
  | .infinite n, .infinite n' => n == n'
  | .nan, .nan => true
  | _, _ => false

end Binary64

/-- The whole number nearest to a fraction; halfway between two, the even one. -/
def roundHalfEven (num den : Nat) : Nat :=
  let quotient := num / den
  let twice := 2 * (num % den)
  if twice < den || (twice == den && quotient % 2 == 0) then quotient else quotient + 1

/-- The fraction `num / den` divided by `2 ^ exponent`, as a numerator and a denominator. -/
def scaled (num den : Nat) (exponent : Int) : Nat × Nat :=
  if exponent ≤ 0 then (num * Nat.pow 2 (-exponent).toNat, den)
  else (num, den * Nat.pow 2 exponent.toNat)

/-- The binary64 number nearest to a positive fraction. -/
def nearest (negative : Bool) (num den : Nat) : Binary64 :=
  if num = 0 then .zero negative
  else
    let guess : Int := Nat.log2 num - Nat.log2 den
    let (n, d) := scaled num den guess
    -- the greatest power of two that is not above the fraction
    let power := if d ≤ n then guess else guess - 1
    let exponent := max (power - 52) (-1074)
    let (n, d) := scaled num den exponent
    let mantissa := roundHalfEven n d
    let (mantissa, exponent) :=
      if mantissa = Nat.pow 2 53 then (Nat.pow 2 52, exponent + 1) else (mantissa, exponent)
    if 971 < exponent then .infinite negative else .finite negative mantissa exponent

/-- The binary64 number nearest to `digits * 10 ^ exponent`. -/
def ofDecimal (negative : Bool) (digits : Nat) (exponent : Int) : Binary64 :=
  let size : Int := (Nat.toDigits 10 digits).length + exponent
  if digits = 0 || size < -400 then .zero negative
  else if 400 < size then .infinite negative
  else if 0 ≤ exponent then nearest negative (digits * Nat.pow 10 exponent.toNat) 1
  else nearest negative digits (Nat.pow 10 (-exponent).toNat)

end TraefikUpgrade.Decimal
