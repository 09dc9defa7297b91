/-
Double-precision numbers by their exact value: a sign, a mantissa below
2^53 and a power of two. Decimal numerals are read by rounding the exact
ratio they denote to the nearest such value, ties going to the even
mantissa; nothing here depends on machine arithmetic.
-/

namespace ApiScaffold

/-- A double-precision number. In `finite`, the value is
`± mantissa · 2 ^ exponent`, where the exponent is at least -1074 and the
mantissa has 53 bits unless the exponent is -1074. -/
inductive Binary64 where
  | finite (negative : Bool) (mantissa : Nat) (exponent : Int)
  | infinite (negative : Bool)
  | nan
deriving Inhabited, Repr, DecidableEq

/-- A quotient rounded to the nearest integer, ties to even. -/
def roundRatio (num den : Nat) : Nat :=
  let q := num / den
  let r := num % den
  if 2 * r < den then q else if den < 2 * r then q + 1 else q + q % 2

namespace Binary64

/-- The least exponent of a finite value. -/
def leastExponent : Int := -1074

/-- The greatest exponent of a finite value. -/
def greatestExponent : Int := 971

/-- Zero with a sign. -/
def zero (negative : Bool) : Binary64 := .finite negative 0 leastExponent

/-- The ratio `num / (den · 2 ^ exponent)` as a numerator and a
denominator. -/
def scaled (num den : Nat) (exponent : Int) : Nat × Nat :=
  (num * Nat.pow 2 (-exponent).toNat, den * Nat.pow 2 exponent.toNat)

/-- The value nearest to `num / den`, for a positive denominator. -/
def ofRatio (negative : Bool) (num den : Nat) : Binary64 :=
  if num = 0 then zero negative else
    let guess : Int := (Nat.log2 num : Int) - (Nat.log2 den : Int) - 53
    let (n, d) := scaled num den guess
    let exact := if Nat.pow 2 53 ≤ n / d then guess + 1 else guess
    let exponent := max exact leastExponent
    let (n, d) := scaled num den exponent
    let mantissa := roundRatio n d
    let (mantissa, exponent) :=
      if mantissa = Nat.pow 2 53 then (Nat.pow 2 52, exponent + 1)
      else (mantissa, exponent)
    if exponent > greatestExponent then .infinite negative
    else .finite negative mantissa exponent

/-- The value nearest to `± coefficient · 10 ^ exponent`. Exponents far
outside the range are settled without computing the power. -/
def ofDecimal (negative : Bool) (coefficient : Nat) (exponent : Int) : Binary64 :=
  let magnitude := ((Nat.toDigits 10 coefficient).length : Int) + exponent
  if coefficient = 0 ∨ magnitude < -330 then zero negative
  else if magnitude > 310 then .infinite negative
  else
    ofRatio negative (coefficient * Nat.pow 10 exponent.toNat)
      (Nat.pow 10 (-exponent).toNat)

/-- The value nearest to an integer. -/
def ofInt (n : Int) : Binary64 := ofRatio (n < 0) n.natAbs 1

/-- The integer that a value equals, if it is one. -/
def toInt? : Binary64 → Option Int
  | .finite negative mantissa exponent =>
    let den := Nat.pow 2 (-exponent).toNat
    let num := mantissa * Nat.pow 2 exponent.toNat
    if num % den = 0 then
      some (if negative then -((num / den : Nat) : Int) else (num / den : Nat))
    else none
  | _ => none

end Binary64

end ApiScaffold
