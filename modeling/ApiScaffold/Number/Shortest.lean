/-
The shortest decimal numeral that reads back as a given double.

The reals that round to `m · 2^q` form an interval around it, with its
ends included when `m` is even. For one, two, … seventeen digits the two
decimal neighbours of the value with that many digits are tried; the
first count with a neighbour in the interval wins, of two neighbours the
nearer, of two equally near the even one. If any numeral of that many
digits lies in the interval, one of the two neighbours does, so no
shorter numeral reads back.
-/
import ApiScaffold.Number.Binary64
import ApiScaffold.Text.Hex

namespace ApiScaffold

/-- How doubles are written. Positional notation is used for decimal
exponents from -4 to 15 and always has a point; other values are written
as digits, `e`, a sign and at least two digits. -/
structure FloatStyle where
  /-- The text of positive infinity. -/
  infinity : String
  /-- The text of what is not a number. -/
  notANumber : String
  /-- Whether a single digit before `e` gets `.0`. -/
  pointBeforeExponent : Bool
deriving Repr, DecidableEq

namespace Shortest

/-- `d · 10 ^ k` and `x · 2 ^ p` brought to a common unit, for
comparison. -/
def common (d x : Nat) (k p : Int) : Nat × Nat :=
  (d * Nat.pow 10 k.toNat * Nat.pow 2 (-p).toNat,
    x * Nat.pow 2 p.toNat * Nat.pow 10 (-k).toNat)

/-- The decimal exponent of the leading digit of `m · 2 ^ q`. -/
def leadingExponent (m : Nat) (q : Int) : Int :=
  let num := m * Nat.pow 2 q.toNat
  let den := Nat.pow 2 (-q).toNat
  if den ≤ num then ((Nat.toDigits 10 (num / den)).length : Int) - 1
  else
    let places := (Nat.toDigits 10 (den / num)).length
    if den ≤ num * Nat.pow 10 (places - 1) then 1 - (places : Int)
    else -(places : Int)

/-- Whether `d · 10 ^ k` rounds to `m · 2 ^ q`. Bounds are counted in
quarters of the unit in the last place. -/
def readsBack (m : Nat) (q : Int) (d : Nat) (k : Int) : Bool :=
  let low :=
    if m = Nat.pow 2 52 ∧ q > Binary64.leastExponent then 4 * m - 1 else 4 * m - 2
  let (a, l) := common d low k (q - 2)
  let (b, h) := common d (4 * m + 2) k (q - 2)
  if m % 2 = 0 then l ≤ a && b ≤ h else l < a && b < h

/-- The numeral with unit `10 ^ k` that reads back and is nearest to
`m · 2 ^ q`, if one does. -/
def atUnit? (m : Nat) (q k : Int) : Option Nat :=
  let (unit, value) := common 1 m k q
  let d := value / unit
  match readsBack m q d k, readsBack m q (d + 1) k with
  | false, false => none
  | true, false => some d
  | false, true => some (d + 1)
  | true, true =>
    let half := (2 * d + 1) * unit
    if 2 * value < half then some d
    else if half < 2 * value then some (d + 1)
    else some (d + d % 2)

/-- Trailing zeros moved into the exponent, at most `fuel` of them. -/
def dropZeros (fuel d : Nat) (k : Int) : Nat × Int :=
  match fuel with
  | 0 => (d, k)
  | fuel + 1 => if d % 10 = 0 then dropZeros fuel (d / 10) (k + 1) else (d, k)

/-- The shortest numeral `d · 10 ^ k` for a positive value, without
trailing zeros. -/
def numeral (m : Nat) (q : Int) : Nat × Int :=
  let top := leadingExponent m q
  let units := (List.range 17).map fun n : Nat => top - (n : Int)
  let found := units.findSome? fun k => (atUnit? m q k).map fun d => (d, k)
  let (d, k) := found.getD (m, 0)
  dropZeros 17 d k

end Shortest

/-- The digits `d` with exponent `k`, written by the rules of
`FloatStyle`. -/
def FloatStyle.numeralText (style : FloatStyle) (d : Nat) (k : Int) : List Char :=
  let ds := decimal d
  let point : Int := ds.length + k
  if -4 < point ∧ point ≤ 16 then
    if point ≤ 0 then '0' :: '.' :: List.replicate (-point).toNat '0' ++ ds
    else if ds.length ≤ point.toNat then
      ds ++ List.replicate (point.toNat - ds.length) '0' ++ ['.', '0']
    else ds.take point.toNat ++ '.' :: ds.drop point.toNat
  else
    let exponent := point - 1
    let body := match ds with
      | [c] => if style.pointBeforeExponent then [c, '.', '0'] else [c]
      | c :: cs => c :: '.' :: cs
      | [] => []
    body ++ 'e' :: (if exponent < 0 then '-' else '+')
      :: padZeros 2 (decimal exponent.natAbs)

/-- The text of a double. -/
def FloatStyle.text (style : FloatStyle) : Binary64 → String
  | .nan => style.notANumber
  | .infinite negative => (if negative then "-" else "") ++ style.infinity
  | .finite negative mantissa exponent =>
    let (d, k) := if mantissa = 0 then (0, 0) else Shortest.numeral mantissa exponent
    (if negative then "-" else "") ++ String.ofList (style.numeralText d k)

end ApiScaffold
