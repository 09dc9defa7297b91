/-
Reading YAML 1.1. Whether a rendered document says what it should is for a
reader to tell, so the rules of reading stand here: how deep a line starts
decides what it belongs to, a scalar may go on over several lines, and what
is written without quotes may be a boolean, null or a number.

Read are single documents of block mappings and sequences, of quoted and plain
scalars, and of empty flow collections. Everything else is refused, so that no
text is read as something it is not: other flow collections, block scalars,
anchors, tags, directives, marks of documents, plain scalars that are numbers
in other notations, dates, doubles or merge keys, and keys that are not text.

A reader takes the characters that remain and returns what it has read with
the characters after it. Carriage returns are gone before it starts.
-/
import ApiScaffold.Json.Reader
import ApiScaffold.Text.Lines
import ApiScaffold.Yaml.Style

namespace ApiScaffold.Yaml

-- ============================================================ characters

/-- A character that may stand in a text of YAML. -/
def isReadable (c : Char) : Bool :=
  let n := c.toNat
  n == 9 || n == 10 || (32 ≤ n && n ≤ 126) || n == 0x85
    || (0xA0 ≤ n && n ≤ 0xD7FF) || (0xE000 ≤ n && n ≤ 0xFFFD && n != 0xFEFF)
    || 0x10000 ≤ n

/-- What a line break is read as. The next-line character is a usual break, the
separators of lines and of paragraphs are breaks of their own. -/
def breakChar (c : Char) : Char := if c = '\u0085' then '\n' else c

/-- Whether a line starts with the mark of the start or the end of a
document. -/
def startsMark (s : List Char) : Bool :=
  ("---".toList.isPrefixOf s || "...".toList.isPrefixOf s) && endsToken (s.drop 3)

-- ================================================================== gaps

/-- What has been crossed since the last character of a scalar. -/
inductive Gap where
  /-- Blanks on one line. -/
  | blanks (cs : List Char)
  /-- A line break, none if it was escaped, and those after it; the blanks
  around them do not count. -/
  | breaks (first : Option Char) (more : List Char)
deriving Inhabited, Repr, DecidableEq

namespace Gap

/-- Nothing has been crossed. -/
def empty : Gap := blanks []

/-- Whether nothing has been crossed. -/
def isEmpty : Gap → Bool
  | blanks cs => cs.isEmpty
  | breaks _ _ => false

/-- Cross a blank. -/
def blank (c : Char) : Gap → Gap
  | blanks cs => blanks (cs ++ [c])
  | breaks first more => breaks first more

/-- Cross a line break. -/
def lineBreak (c : Char) : Gap → Gap
  | blanks _ => breaks (some (breakChar c)) []
  | breaks first more => breaks first (more ++ [breakChar c])

/-- What a gap is read as: a line feed alone as a blank, and of several breaks
that start with one all but that one. -/
def text : Gap → List Char
  | blanks cs => cs
  | breaks none more => more
  | breaks (some c) more =>
    if c ≠ '\n' then c :: more else if more.isEmpty then [' '] else more

end Gap

/-- Put characters in front of what has been read. -/
def prepend (s : List Char) (r : List Char × List Char) : List Char × List Char :=
  (s ++ r.1, r.2)

-- ======================================================== quoted scalars

/-- A blank inside quotes. -/
def isInnerBlank (c : Char) : Bool := c = ' ' || c = '\t'

/-- The rest of a text in single quotes. -/
def readSingle (gap : Gap) : List Char → Option (List Char × List Char)
  | [] => none
  | c :: rest =>
    if c = '\'' then
      match rest with
      | '\'' :: rest => (readSingle .empty rest).map (prepend (gap.text ++ ['\'']))
      | _ => some (gap.text, rest)
    else if isBreak c then
      if startsMark rest then none else readSingle (gap.lineBreak c) rest
    else if isInnerBlank c then readSingle (gap.blank c) rest
    else (readSingle .empty rest).map (prepend (gap.text ++ [c]))

/-- The character that an escape of one letter denotes. -/
def unescapeLetter? (c : Char) : Option Char :=
  if c = ' ' ∨ c = '\t' ∨ c = '/' then some c
  else (letterEscapes.find? fun e => e.2 = c).map fun e => Char.ofNat e.1

/-- The number of hexadecimal digits after a letter. -/
def codeWidth? (c : Char) : Option Nat :=
  if c = 'x' then some 2 else if c = 'u' then some 4 else if c = 'U' then some 8
  else none

/-- The number that hexadecimal digits denote, going on from another. -/
def ofHex? (n : Nat) : List Char → Option Nat
  | [] => some n
  | c :: cs => do ofHex? (16 * n + (← hexValue? c)) cs

/-- An escape, given the text after its backslash: the character and the number
of characters of the escape after the backslash. -/
def escape? : List Char → Option (Char × Nat)
  | [] => none
  | c :: rest => match unescapeLetter? c with
    | some d => some (d, 1)
    | none => do
      let width ← codeWidth? c
      let n ← ofHex? 0 (rest.take width)
      if width ≤ rest.length ∧ n.isValidChar then some (Char.ofNat n, width + 1)
      else none

/-- The rest of a text in double quotes. -/
def readDouble (gap : Gap) (s : List Char) : Option (List Char × List Char) :=
  match s with
  | [] => none
  | '"' :: rest => some (gap.text, rest)
  | '\\' :: rest =>
    if rest.head?.any isBreak then
      if startsMark rest.tail then none
      else (readDouble (.breaks none []) rest.tail).map (prepend gap.text)
    else match escape? rest with
      | some (c, width) =>
        (readDouble .empty (rest.drop width)).map (prepend (gap.text ++ [c]))
      | none => none
  | c :: rest =>
    if isBreak c then
      if startsMark rest then none else readDouble (gap.lineBreak c) rest
    else if isInnerBlank c then readDouble (gap.blank c) rest
    else (readDouble .empty rest).map (prepend (gap.text ++ [c]))
termination_by s.length
decreasing_by
  all_goals simp only [List.length_drop, List.length_cons, List.length_tail]; omega

-- ========================================================= plain scalars

/-- Whether a plain scalar starts here. -/
def startsPlain : List Char → Bool
  | [] => false
  | c :: rest =>
    !isSeparator c && !leadingIndicators.contains c
      && !((c = '?' || c = ':' || c = '-') && endsToken rest)

/-- The rest of a plain scalar. A line that belongs to it starts at the column
`floor` or after it, and `lack` tells how many columns are missing there; `mark`
is the text at the start of the gap, where the scalar ends unless it goes on
behind the gap. -/
def readPlain (floor lack : Nat) (gap : Gap) (mark : List Char) :
    List Char → List Char × List Char
  | [] => ([], mark)
  | c :: rest =>
    if isBreak c then
      if startsMark rest then ([], mark)
      else readPlain floor floor (gap.lineBreak c) mark rest
    else if c = ' ' then readPlain floor (lack - 1) (gap.blank c) mark rest
    else if isSeparator c || (c = ':' && endsToken rest) || (c = '#' && !gap.isEmpty)
        || 0 < lack then ([], mark)
    else prepend (gap.text ++ [c]) (readPlain floor 0 .empty rest rest)

/-- Whether digits, with underscores to part them, are a decimal numeral; a zero
stands alone. -/
def isNumeral : List Char → Bool
  | [] => false
  | '0' :: rest => rest.isEmpty
  | c :: rest => c.isDigit && rest.all fun d => d.isDigit || d = '_'

/-- The number of a decimal numeral. -/
def natural? (s : List Char) : Option Nat :=
  let digits := s.filter Char.isDigit
  if isNumeral s && digits.length ≤ digitLimit then some (ofDecimal digits) else none

/-- A decimal integer with an optional sign. -/
def decimal? : List Char → Option Int
  | '-' :: s => (natural? s).map fun n => -(n : Int)
  | '+' :: s => (natural? s).map Int.ofNat
  | s => (natural? s).map Int.ofNat

/-- Whether a boolean is the true one. -/
def isTrueWord (s : List Char) : Bool :=
  ["yes", "true", "on"].contains (String.ofList (s.map Char.toLower))

/-- The value of a plain scalar. -/
def plainValue? (s : List Char) : Option Json :=
  if !isImplicit s then some (.str (String.ofList s))
  else match decimal? s with
    | some n => some (.int n)
    | none =>
      if nulls.accepts s then some .null
      else if booleans.accepts s then some (.bool (isTrueWord s))
      else none

-- ================================================================ tokens

/-- Where a token starts. -/
structure Spot where
  rest : List Char
  column : Nat
  /-- Whether it is on another line than the token before. -/
  crossed : Bool
deriving Inhabited, Repr, DecidableEq

/-- Go to the next token, over blanks, line breaks and comments. -/
def seek (column : Nat) (crossed comment : Bool) : List Char → Spot
  | [] => ⟨[], column, crossed⟩
  | c :: rest =>
    if isBreak c then seek 0 true false rest
    else if comment || c = ' ' then seek (column + 1) crossed comment rest
    else if c = '#' then seek (column + 1) crossed true rest
    else ⟨c :: rest, column, crossed⟩

/-- The next token, if it starts on a later line at a column. -/
def nextAt? (column : Nat) (s : List Char) : Option (List Char) :=
  let spot := seek 0 false false s
  if spot.crossed && spot.column == column && !spot.rest.isEmpty then some spot.rest
  else none

/-- Whether an indicator stands here. -/
def stands (c : Char) : List Char → Bool
  | [] => false
  | d :: rest => d == c && endsToken rest

/-- A scalar or an empty flow collection. -/
def readLeaf (floor column : Nat) (s : List Char) : Option (Json × List Char) :=
  match s with
  | '\'' :: rest =>
    (readSingle .empty rest).map fun (t, rest) => (.str (String.ofList t), rest)
  | '"' :: rest =>
    (readDouble .empty rest).map fun (t, rest) => (.str (String.ofList t), rest)
  | '[' :: ']' :: rest => some (.arr [], rest)
  | '\x7b' :: '\x7d' :: rest => some (.obj [], rest)
  | s =>
    if startsPlain s && !(column == 0 && startsMark s) then
      let (t, rest) := readPlain floor 0 .empty s s
      (plainValue? t).map fun j => (j, rest)
    else none

/-- The most characters from the start of a key to its colon. -/
def keySpan : Nat := 1024

/-- A key before its colon, on one line, and what follows the colon. -/
def readKey (column : Nat) (s : List Char) : Option (String × List Char) :=
  match readLeaf 0 column s with
  | some (.str key, rest) =>
    let rest := rest.dropWhile isSpace
    let token := s.take (s.length - rest.length)
    if stands ':' rest && token.length ≤ keySpan && !token.any isBreak then
      some (key, rest.tail)
    else none
  | _ => none

/-- Whether a field of a mapping starts here. -/
def startsField (floor column : Nat) (s : List Char) : Bool :=
  stands '?' s || match readLeaf floor column s with
    | some (_, rest) => stands ':' (rest.dropWhile isSpace)
    | none => false

-- ================================================================= nodes

mutual

/-- The node that starts here. `fuel` bounds how deep the calls go: no character
takes more than two of them. -/
def readNode (fuel floor column : Nat) (s : List Char) : Option (Json × List Char) :=
  match fuel with
  | 0 => none
  | fuel + 1 =>
    if stands '-' s then do
      let (items, rest) ← readItems fuel column s
      return (.arr items, rest)
    else if startsField floor column s then do
      let (fields, rest) ← readFields fuel column s
      return (.obj (OrderedMap.ofList fields).entries, rest)
    else readLeaf floor column s

/-- The node behind an indicator or a key of a block at a column; none there
counts as null. `inline` tells whether a block may start on the same line, and
`level` whether a sequence may start at the column of the block. -/
def readBehind (fuel : Nat) (inline level : Bool) (column : Nat) (s : List Char) :
    Option (Json × List Char) :=
  match fuel with
  | 0 => none
  | fuel + 1 =>
    let spot := seek (column + 1) false false s
    if spot.rest.isEmpty then some (.null, s)
    else if spot.crossed then
      if column < spot.column then readNode fuel (column + 1) spot.column spot.rest
      else if level && spot.column == column && stands '-' spot.rest then do
        let (items, rest) ← readItems fuel column spot.rest
        return (.arr items, rest)
      else some (.null, s)
    else if inline then readNode fuel (column + 1) spot.column spot.rest
    else readLeaf (column + 1) spot.column spot.rest

/-- The items of a sequence at a column. -/
def readItems (fuel column : Nat) (s : List Char) :
    Option (List Json × List Char) :=
  match fuel with
  | 0 => none
  | fuel + 1 => do
    let (item, rest) ← readBehind fuel true false column s.tail
    match nextAt? column rest with
    | some next =>
      if stands '-' next then
        let (items, rest) ← readItems fuel column next
        return (item :: items, rest)
      else return ([item], rest)
    | none => return ([item], rest)

/-- The fields of a mapping at a column. -/
def readFields (fuel column : Nat) (s : List Char) :
    Option (List (String × Json) × List Char) :=
  match fuel with
  | 0 => none
  | fuel + 1 => do
    let (field, rest) ← readField fuel column s
    match nextAt? column rest with
    | some next =>
      let (fields, rest) ← readFields fuel column next
      return (field :: fields, rest)
    | none => return ([field], rest)

/-- A field of a mapping at a column: a key behind a question mark, with its
value on a line of its own, or a key before its colon. -/
def readField (fuel column : Nat) (s : List Char) :
    Option ((String × Json) × List Char) :=
  match fuel with
  | 0 => none
  | fuel + 1 =>
    if stands '?' s then
      let spot := seek (column + 1) false false s.tail
      if spot.crossed then none
      else match readLeaf (column + 1) spot.column spot.rest with
      | some (.str key, rest) =>
        match (nextAt? column rest).filter (stands ':') with
        | some next => do
          let (value, rest) ← readBehind fuel true true column next.tail
          return ((key, value), rest)
        | none => some ((key, .null), rest)
      | _ => none
    else do
      let (key, rest) ← readKey column s
      let (value, rest) ← readBehind fuel false true column rest
      return ((key, value), rest)

end

/-- Read a text that holds one document. -/
def read (s : List Char) : Option Json :=
  let s := unifyBreaks s
  if s.all isReadable then
    let spot := seek 0 false false s
    if spot.rest.isEmpty then some .null
    else do
      let (j, rest) ← readNode (2 * s.length + 2) 0 spot.column spot.rest
      if (seek 0 false false rest).rest.isEmpty then some j else none
  else none

end ApiScaffold.Yaml
