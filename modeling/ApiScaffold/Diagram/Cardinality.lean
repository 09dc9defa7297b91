/-
Multiplicities: reading the token beside an end of a relation, and the
decision that a multiplicity takes about the property it becomes. A
token is a star, a run of decimal digits of any script, a range of two of
these around two dots, or a label. Numerals are limited in length, and a
longer one is the only thing in a diagram that cannot be read.
-/
import ApiScaffold.Diagram.Arrow
import ApiScaffold.Text.Blank
import ApiScaffold.Text.Case

namespace ApiScaffold

-- ============================================================= numerals

/-- The most digits that a numeral of a multiplicity may have, leading
zeros included. -/
def numeralLimit : Nat := 4300

/-- A numeral has more digits than the limit. -/
structure NumeralTooLong where
  digits : Nat
deriving Inhabited, Repr, DecidableEq

/-- The number that decimal digits of any script denote. -/
def numeralValue (ds : List Char) : Nat :=
  ds.foldl (fun n c => 10 * n + (digitValue? c).getD 0) 0

/-- Read a run of decimal digits. -/
def readNumeral (ds : List Char) : Except NumeralTooLong Int :=
  if numeralLimit < ds.length then .error ⟨ds.length⟩ else .ok (numeralValue ds)

-- =============================================================== tokens

/-- One side of a range: a star or a run of digits. -/
inductive Bound where
  | unbounded
  | digits (ds : List Char)
deriving Inhabited, Repr, DecidableEq

/-- The bound at the start of a text and the text after it. -/
def Bound.read? : List Char → Option (Bound × List Char)
  | '*' :: rest => some (.unbounded, rest)
  | s => match s.takeWhile isDecimal with
    | [] => none
    | ds => some (.digits ds, s.dropWhile isDecimal)

/-- The number of a bound, none for a star. -/
def Bound.value : Bound → Except NumeralTooLong (Option Int)
  | .unbounded => .ok none
  | .digits ds => (readNumeral ds).map some

/-- The two sides of a range. -/
def readRange? (s : List Char) : Option (Bound × Bound) := do
  let (lower, rest) ← Bound.read? s
  match rest with
  | '.' :: '.' :: rest =>
    let (upper, rest) ← Bound.read? rest
    if rest.isEmpty then some (lower, upper) else none
  | _ => none

namespace Cardinality

/-- Read a token without surrounding blanks that is not empty. -/
def ofToken (s : List Char) : Except NumeralTooLong Cardinality :=
  let raw := String.ofList s
  if s = ['*'] then .ok { kind := .many, raw }
  else if s.all isDecimal then do
    return { kind := .exact, raw, value := some (← readNumeral s) }
  else match readRange? s with
    | some (lower, upper) => do
      let low ← lower.value
      let high ← upper.value
      return { kind := .range, raw, lower := low, upper := high }
    | none => .ok { kind := .custom, raw, label := some raw }

/-- Read the text of a multiplicity; a blank one is none. -/
def ofText (s : List Char) : Except NumeralTooLong (Option Cardinality) :=
  match trim s with
  | [] => .ok none
  | token => (ofToken token).map some

/-- Read a multiplicity that may be missing. -/
def ofText? : Option (List Char) → Except NumeralTooLong (Option Cardinality)
  | none => .ok none
  | some s => ofText s

end Cardinality

-- ============================================================ decisions

/-- The shape of the property that a relation becomes. -/
structure Decision where
  isArray : Bool := false
  required : Bool := false
  minItems : Option Int := none
  maxItems : Option Int := none
deriving Inhabited, Repr, DecidableEq

/-- Words of a label that ask for a single value. -/
def wordsForOne : List String := ["one", "single", "singular"]

/-- Words of a label that ask for a list. -/
def wordsForMany : List String := ["many", "multiple", "list", "collection"]

namespace Decision

/-- The decision for a label: a required single value where a singular
word occurs in it, a list where a plural word does, and an optional
single value otherwise. -/
def ofLabel (label : String) : Decision :=
  let text := lower label.toList
  let hinted (words : List String) := words.any fun w => occursIn w.toList text
  if hinted wordsForOne then { required := true }
  else if hinted wordsForMany then { isArray := true }
  else {}

/-- The decision for a multiplicity. A missing value counts as zero. -/
def ofCardinality (c : Cardinality) : Decision :=
  match c.kind with
  | .many => { isArray := true }
  | .exact =>
    let count := c.value.getD 0
    if count = 1 then { required := true }
    else
      { isArray := true, required := count > 0
        minItems := some count, maxItems := some count }
  | .range =>
    let low := c.lower.getD 0
    if c.upper = some 1 then { required := low > 0 }
    else
      { isArray := true, required := low > 0
        minItems := if low > 0 then some low else none, maxItems := c.upper }
  | .custom =>
    match c.label with
    | some label => ofLabel (if label.isEmpty then c.raw else label)
    | none => ofLabel c.raw

/-- The decision for an end of a relation: an optional single value where
no multiplicity stands. -/
def ofCardinality? : Option Cardinality → Decision
  | none => {}
  | some c => ofCardinality c

end Decision

end ApiScaffold
