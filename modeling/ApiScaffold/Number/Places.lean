/-
Doubles with a stated number of digits: with so many places after the
point, with one digit before it and an exponent, or in the shorter of the
two ways for a number of significant digits. The exact value is rounded
once, ties to the even digit.
-/
import ApiScaffold.Number.Shortest

namespace ApiScaffold

namespace Places

/-- `m · 2 ^ q / 10 ^ k` rounded to an integer. -/
def roundedAt (m : Nat) (q k : Int) : Nat :=
  let (unit, value) := Shortest.common 1 m k q
  roundRatio value unit

/-- A decimal with `places` digits after its point; without digits there
the point is written only if asked for. -/
def positional (places : Nat) (keepPoint : Bool) (n : Nat) : List Char :=
  let ds := padZeros (places + 1) (decimal n)
  let whole := ds.take (ds.length - places)
  let fraction := ds.drop (ds.length - places)
  if fraction.isEmpty && !keepPoint then whole else whole ++ '.' :: fraction

/-- `m · 2 ^ q` with so many places. -/
def fixed (places : Nat) (keepPoint : Bool) (m : Nat) (q : Int) : List Char :=
  positional places keepPoint (roundedAt m q (-(places : Int)))

/-- The first `count` digits of `m · 2 ^ q`, as a number, and the exponent
of the first of them. -/
def leading (count m : Nat) (q : Int) : Nat × Int :=
  if m = 0 then (0, 0) else
    let top := Shortest.leadingExponent m q
    let n := roundedAt m q (top - ((count : Int) - 1))
    if n = Nat.pow 10 count then (n / 10, top + 1) else (n, top)

/-- An exponent: a sign and at least two digits. -/
def exponentText (e : Int) : List Char :=
  'e' :: (if e < 0 then '-' else '+') :: padZeros 2 (decimal e.natAbs)

/-- `m · 2 ^ q` with one digit before the point, so many after it, and an
exponent. -/
def scientific (places : Nat) (keepPoint : Bool) (m : Nat) (q : Int) : List Char :=
  let (n, top) := leading (places + 1) m q
  positional places keepPoint n ++ exponentText top

/-- A numeral without zeros at the end of its fraction. -/
def dropFractionZeros (s : List Char) : List Char :=
  if s.contains '.' then
    let kept := s.reverse.dropWhile (· == '0')
    (match kept with
      | '.' :: rest => rest
      | _ => kept).reverse
  else s

/-- `m · 2 ^ q` with so many significant digits, positional unless its
exponent is below -4 or reaches their number. Zeros at the end of the
fraction are dropped unless they are asked for. -/
def general (digits : Nat) (keepZeros : Bool) (m : Nat) (q : Int) : List Char :=
  let count := max digits 1
  let (n, top) := leading count m q
  let trim (s : List Char) : List Char := if keepZeros then s else dropFractionZeros s
  if -4 ≤ top ∧ top < count then
    let places := ((count : Int) - 1 - top).toNat
    trim (fixed places keepZeros m q)
  else trim (positional (count - 1) keepZeros n) ++ exponentText top

end Places

end ApiScaffold
