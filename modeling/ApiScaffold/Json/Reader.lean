/-
Reading JSON. A reader takes the characters that remain and returns a
value with the characters after it; where it cannot go on it returns the
characters at which it stopped, so the place of an error is a suffix of
the input. Besides the standard grammar the three words for infinities
and for what is not a number are accepted, an object that repeats a key
keeps the last value in the first place, and integers are limited to
4300 digits.
-/
import ApiScaffold.Json.Basic
import ApiScaffold.Text.Hex

namespace ApiScaffold

/-- The most digits an integer numeral may have. -/
def digitLimit : Nat := 4300

/-- Why reading JSON stopped. -/
inductive Json.ReadError where
  /-- The grammar does not allow what stands at this suffix. -/
  | stopped (rest : List Char)
  /-- An integer has more digits than the limit. -/
  | numberTooLong (digits : Nat)
deriving Repr, DecidableEq

namespace Json

/-- White space between tokens. -/
def isSpace (c : Char) : Bool := c = ' ' ∨ c = '\t' ∨ c = '\n' ∨ c = '\r'

/-- The characters after white space. -/
def skipSpace (s : List Char) : List Char := s.dropWhile isSpace

-- ============================================================= strings

/-- The number that four hexadecimal digits denote. -/
def unit? (a b c d : Char) : Option Nat := do
  let a ← hexValue? a
  let b ← hexValue? b
  let c ← hexValue? c
  let d ← hexValue? d
  return ((a * 16 + b) * 16 + c) * 16 + d

/-- The character that a short escape denotes. -/
def unescape? (c : Char) : Option Char :=
  if c = '"' ∨ c = '\\' ∨ c = '/' then some c
  else if c = 'b' then some '\x08'
  else if c = 'f' then some '\x0c'
  else if c = 'n' then some '\n'
  else if c = 'r' then some '\r'
  else if c = 't' then some '\t'
  else none

/-- The character of one UTF-16 unit; half of a pair that stands alone
becomes the replacement character. -/
def unitChar (n : Nat) : Char :=
  if 0xD800 ≤ n ∧ n < 0xE000 then '\uFFFD' else Char.ofNat n

/-- An escape of four hexadecimal digits, given the text after its `u`:
the character and the number of characters of the escape after its
backslash. Two escapes that form a surrogate pair are one character. More
text must follow the digits. -/
def unicodeEscape (s : List Char) : Except ReadError (Char × Nat) :=
  match s with
  | a :: b :: c :: d :: next :: rest =>
    match unit? a b c d with
    | none => .error (.stopped ('u' :: s))
    | some high =>
      if 0xD800 ≤ high ∧ high < 0xDC00 then
        match next :: rest with
        | '\\' :: 'u' :: e :: f :: g :: h :: _ :: _ =>
          match unit? e f g h with
          | none => .error (.stopped rest)
          | some low =>
            if 0xDC00 ≤ low ∧ low < 0xE000 then
              .ok (Char.ofNat (0x10000 + (high - 0xD800) * 0x400 + (low - 0xDC00)), 11)
            else .ok (unitChar high, 5)
        | _ => .ok (unitChar high, 5)
      else .ok (unitChar high, 5)
  | _ => .error (.stopped ('u' :: s))

/-- An escape, given the text after its backslash: the character and the
number of characters of the escape after the backslash. -/
def escape (start : List Char) : List Char → Except ReadError (Char × Nat)
  | [] => .error (.stopped start)
  | 'u' :: rest => unicodeEscape rest
  | c :: rest => match unescape? c with
    | some e => .ok (e, 1)
    | none => .error (.stopped ('\\' :: c :: rest))

/-- The rest of a string after its opening quote. `start` is the suffix
at that quote and `acc` holds the characters read, last first. -/
def stringBody (start acc : List Char) (s : List Char) :
    Except ReadError (String × List Char) :=
  match s with
  | [] => .error (.stopped start)
  | '"' :: rest => .ok (String.ofList acc.reverse, rest)
  | '\\' :: rest =>
    match escape start rest with
    | .ok (c, width) => stringBody start (c :: acc) (rest.drop width)
    | .error e => .error e
  | c :: rest =>
    if c.toNat < 32 then .error (.stopped (c :: rest))
    else stringBody start (c :: acc) rest
termination_by s.length
decreasing_by all_goals (simp only [List.length_drop, List.length_cons]; omega)

-- ============================================================= numbers

/-- The digits at the start of a text and the text after them. -/
def digitRun (s : List Char) : List Char × List Char :=
  (s.takeWhile Char.isDigit, s.dropWhile Char.isDigit)

/-- The digits of the whole part: a zero alone, or a run that does not
start with one. -/
def wholePart? : List Char → Option (List Char × List Char)
  | '0' :: rest => some (['0'], rest)
  | c :: rest => if c.isDigit then some (digitRun (c :: rest)) else none
  | [] => none

/-- The digits after a point, if a point and a digit follow. -/
def fractionPart : List Char → List Char × List Char
  | '.' :: c :: rest =>
    if c.isDigit then digitRun (c :: rest) else ([], '.' :: c :: rest)
  | s => ([], s)

/-- The exponent, if a complete one follows. -/
def exponentPart? (s : List Char) : Option (Int × List Char) :=
  match s with
  | e :: rest =>
    if e = 'e' ∨ e = 'E' then
      let (negative, rest) := match rest with
        | '-' :: r => (true, r)
        | '+' :: r => (false, r)
        | r => (false, r)
      let (ds, rest) := digitRun rest
      if ds.isEmpty then none
      else some (if negative then -(ofDecimal ds : Int) else ofDecimal ds, rest)
    else none
  | [] => none

/-- A number without its sign. -/
def unsigned (start : List Char) (negative : Bool) (s : List Char) :
    Except ReadError (Json × List Char) :=
  match wholePart? s with
  | none => .error (.stopped start)
  | some (whole, rest) =>
    let (fraction, rest) := fractionPart rest
    let exponent? := exponentPart? rest
    if fraction.isEmpty && exponent?.isNone then
      if digitLimit < whole.length then .error (.numberTooLong whole.length)
      else
        let n : Int := ofDecimal whole
        .ok (.int (if negative then -n else n), rest)
    else
      let (exponent, rest) := exponent?.getD (0, rest)
      .ok (.float (Binary64.ofDecimal negative (ofDecimal (whole ++ fraction))
        (exponent - fraction.length)), rest)

/-- A number. -/
def number (s : List Char) : Except ReadError (Json × List Char) :=
  match s with
  | '-' :: rest => unsigned s true rest
  | _ => unsigned s false s

-- ============================================================== values

/-- The text after a word, if it starts with that word. -/
def after? (word : String) (s : List Char) : Option (List Char) :=
  if word.toList.isPrefixOf s then some (s.drop word.length) else none

/-- The words that are values. -/
def words : List (String × Json) :=
  [("null", .null), ("true", .bool true), ("false", .bool false),
   ("NaN", .float .nan), ("Infinity", .float (.infinite false)),
   ("-Infinity", .float (.infinite true))]

/-- A value that is neither a string, an array nor an object. -/
def scalar (s : List Char) : Except ReadError (Json × List Char) :=
  match words.findSome? fun (w, j) => (after? w s).map fun rest => (j, rest) with
  | some r => .ok r
  | none => number s

mutual

/-- The value at the start of the text. `fuel` bounds how deep the calls go:
no character takes more than two of them. -/
def value (fuel : Nat) (s : List Char) : Except ReadError (Json × List Char) :=
  match fuel with
  | 0 => .error (.stopped s)
  | fuel + 1 => match s with
    | '"' :: rest => do
      let (text, rest) ← stringBody s [] rest
      return (.str text, rest)
    | '[' :: rest =>
      match skipSpace rest with
      | ']' :: rest => .ok (.arr [], rest)
      | rest => do
        let (items, rest) ← items fuel rest
        return (.arr items, rest)
    | '\x7b' :: rest =>
      match skipSpace rest with
      | '\x7d' :: rest => .ok (.obj [], rest)
      | rest => do
        let (fields, rest) ← fields fuel rest
        return (.obj (OrderedMap.ofList fields).entries, rest)
    | _ => scalar s

/-- The items of an array up to its closing bracket. -/
def items (fuel : Nat) (s : List Char) : Except ReadError (List Json × List Char) :=
  match fuel with
  | 0 => .error (.stopped s)
  | fuel + 1 => do
    let (item, rest) ← value fuel s
    match skipSpace rest with
    | ']' :: rest => return ([item], rest)
    | ',' :: rest =>
      let (more, rest) ← items fuel (skipSpace rest)
      return (item :: more, rest)
    | rest => throw (.stopped rest)

/-- The fields of an object up to its closing brace. -/
def fields (fuel : Nat) (s : List Char) :
    Except ReadError (List (String × Json) × List Char) :=
  match fuel with
  | 0 => .error (.stopped s)
  | fuel + 1 => match s with
    | '"' :: rest => do
      let (key, rest) ← stringBody s [] rest
      match skipSpace rest with
      | ':' :: rest =>
        let (item, rest) ← value fuel (skipSpace rest)
        match skipSpace rest with
        | '\x7d' :: rest => return ([(key, item)], rest)
        | ',' :: rest =>
          let (more, rest) ← fields fuel (skipSpace rest)
          return ((key, item) :: more, rest)
        | rest => throw (.stopped rest)
      | rest => throw (.stopped rest)
    | _ => .error (.stopped s)

end

/-- Read a text that holds one value and white space around it. -/
def read (s : List Char) : Except ReadError Json := do
  let (j, rest) ← value (2 * s.length + 2) (skipSpace s)
  match skipSpace rest with
  | [] => return j
  | rest => throw (.stopped rest)

-- ============================================================= nesting

/-- Where in a text of JSON one is: how many arrays and objects are open,
the most of them so far, and whether the place is in a string or even
after a backslash there. -/
structure Nesting where
  depth : Nat := 0
  deepest : Nat := 0
  inString : Bool := false
  escaped : Bool := false
deriving Inhabited, Repr, DecidableEq

/-- Go on by a character. -/
def Nesting.next (n : Nesting) (c : Char) : Nesting :=
  if n.escaped then { n with escaped := false }
  else if n.inString then
    { n with inString := c ≠ '"', escaped := c = '\\' }
  else if c = '"' then { n with inString := true }
  else if c = '[' ∨ c = '\x7b' then
    { n with depth := n.depth + 1, deepest := max n.deepest (n.depth + 1) }
  else if c = ']' ∨ c = '\x7d' then { n with depth := n.depth - 1 }
  else n

/-- How deep the arrays and objects of a text are nested. -/
def nesting (s : List Char) : Nat := (s.foldl Nesting.next {}).deepest

/-- The number of characters before the place of an error. -/
def ReadError.offset (input : List Char) : ReadError → Nat
  | .stopped rest => input.length - rest.length
  | .numberTooLong _ => 0

end Json

end ApiScaffold
