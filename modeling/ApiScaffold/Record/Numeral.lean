/-
Numbers written as text. A plain numeral is an optional minus sign and
digits without a leading zero, of limited length. Other spellings of an
integer are brought into that form first: blanks around it, a plus sign,
leading zeros with underscores among them, a fraction of zeros and single
underscores between characters are taken away. Leading zeros give way to
a minus sign as well as to a digit, so a sign may stand behind them.
-/
import ApiScaffold.Json.Reader
import ApiScaffold.Text.Blank

namespace ApiScaffold

-- ======================================================= plain numerals

/-- Why a text is no plain numeral. -/
inductive NumeralFault where
  | notNumeral
  | tooLong
deriving Inhabited, Repr, DecidableEq

/-- The digits of a numeral that must make up the whole text; `signs` is
the number of characters before them. -/
def wholeNumeral (signs : Nat) (s : List Char) : Except NumeralFault Nat :=
  match Json.wholePart? s with
  | none => .error .notNumeral
  | some (ds, rest) =>
    if digitLimit < signs + ds.length then .error .tooLong
    else if rest.isEmpty then .ok (ofDecimal ds)
    else .error .notNumeral

/-- The integer that a plain numeral denotes. Digits beyond the limit are
too many even if no numeral comes of them. -/
def plainInteger : List Char → Except NumeralFault Int
  | '-' :: rest => (wholeNumeral 1 rest).map fun n => -(n : Int)
  | s => (wholeNumeral 0 s).map fun n => (n : Int)

-- ====================================================== other spellings

/-- A character trimmed from around numerals: white space other than the
information separators. -/
def isNumeralSpace (c : Char) : Bool :=
  isBlank c && !(28 ≤ c.toNat && c.toNat ≤ 31)

/-- The text without white space around it. -/
def trimNumeral (s : List Char) : List Char :=
  ((s.dropWhile isNumeralSpace).reverse.dropWhile isNumeralSpace).reverse

/-- The text after leading zeros and underscores, the last of which is
`last`. Of nothing but zeros the last character stays, and so does the
one before a point. -/
def afterZeros (last : Char) : List Char → Option (List Char)
  | [] => some [last]
  | c :: rest =>
    if c = '0' || c = '_' then afterZeros c rest
    else if c.isDigit || c = '-' then some (c :: rest)
    else if c = '.' then some (last :: c :: rest)
    else none

/-- The text without leading zeros, if it starts like a numeral. -/
def dropLeadingZeros : List Char → Option (List Char)
  | '0' :: rest => afterZeros '0' rest
  | c :: rest => if c.isDigit || c = '-' then some (c :: rest) else none
  | [] => none

/-- The text up to its first point, if zeros and nothing else follow. -/
def dropZeroFraction (s : List Char) : List Char :=
  let fraction := (s.dropWhile (· ≠ '.')).drop 1
  if !fraction.isEmpty && fraction.all (· == '0') then s.takeWhile (· ≠ '.') else s

/-- Whether two underscores stand side by side. -/
def hasDoubleUnderscore : List Char → Bool
  | '_' :: '_' :: _ => true
  | _ :: rest => hasDoubleUnderscore rest
  | [] => false

/-- The text without its underscores, if each of them stands alone
between other characters. -/
def joinGroups? (s : List Char) : Option (List Char) :=
  if s.head? = some '_' || s.getLast? = some '_' || hasDoubleUnderscore s then none
  else some (s.filter (· ≠ '_'))

/-- The plain form of an unsigned numeral. -/
def plainDigits (s : List Char) : Option (List Char) :=
  (dropLeadingZeros s).map fun kept =>
    let whole := dropZeroFraction kept
    (joinGroups? whole).getD whole

/-- The plain form of a numeral. -/
def plainForm (s : List Char) : Option (List Char) :=
  match trimNumeral s with
  | '+' :: '-' :: _ => none
  | '+' :: rest => plainDigits rest
  | '-' :: rest => (plainDigits rest).map ('-' :: ·)
  | rest => plainDigits rest

/-- The integer that a text denotes. -/
def integerOfText (s : List Char) : Except NumeralFault Int :=
  match plainInteger s with
  | .error .notNumeral => match plainForm s with
    | some plain => plainInteger plain
    | none => .error .notNumeral
  | result => result

-- ============================================================== decimals

/-- The number that a decimal text denotes: digits with a point among,
before or after them, perhaps an exponent, or a word for infinity or for
what is no number. -/
def decimalOfText (text : List Char) : Option Binary64 :=
  let (negative, body) := match text with
    | '-' :: rest => (true, rest)
    | '+' :: rest => (false, rest)
    | rest => (false, rest)
  let word := String.ofList (body.map Char.toLower)
  if word == "nan" then some .nan
  else if word == "inf" || word == "infinity" then some (.infinite negative)
  else
    let (whole, rest) := Json.digitRun body
    let (fraction, rest) := match rest with
      | '.' :: rest => Json.digitRun rest
      | _ => ([], rest)
    let (exponent, rest) := (Json.exponentPart? rest).getD (0, rest)
    if (whole.isEmpty && fraction.isEmpty) || !rest.isEmpty then none
    else some (Binary64.ofDecimal negative (ofDecimal (whole ++ fraction))
      (exponent - fraction.length))

/-- The number that a text denotes; blanks may stand around it, or else
underscores between its characters. -/
def numberOfText (s : List Char) : Option Binary64 :=
  match decimalOfText (trimNumeral s) with
  | some x => some x
  | none => (joinGroups? s).bind decimalOfText

end ApiScaffold
