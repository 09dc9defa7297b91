/-
How a text is quoted in YAML. Plain text is preferred where it reads back
as itself; single quotes hold everything but special characters and
blanks next to line breaks; double quotes hold the rest with escapes.
-/
import ApiScaffold.Text.Hex
import ApiScaffold.Yaml.Implicit

namespace ApiScaffold.Yaml

-- ============================================================ characters

/-- A line break inside a scalar. -/
def isBreak (c : Char) : Bool :=
  c = '\n' || c = '\u0085' || c = '\u2028' || c = '\u2029'

/-- A character that separates tokens. -/
def isSeparator (c : Char) : Bool :=
  c = '\x00' || c = ' ' || c = '\t' || c = '\r' || isBreak c

/-- A character above ASCII that may stand unescaped. -/
def isPlainUnicode (c : Char) : Bool :=
  let n := c.toNat
  (n == 0x85 || (0xA0 ≤ n && n ≤ 0xD7FF) || (0xE000 ≤ n && n ≤ 0xFFFD)
    || (0x10000 ≤ n && n < 0x10FFFF)) && n != 0xFEFF

/-- A character that only double quotes can hold. -/
def isSpecial (c : Char) : Bool :=
  !(c = '\n' || (32 ≤ c.toNat && c.toNat ≤ 126) || isPlainUnicode c)

/-- Whether a text ends here or goes on with a separator. -/
def endsToken (s : List Char) : Bool := s.head?.all isSeparator

-- ============================================================== analysis

/-- Characters with a meaning of their own at the start of a scalar. -/
def leadingIndicators : List Char :=
  ['#', ',', '[', ']', '\x7b', '\x7d', '&', '*', '!', '|', '>', '\'', '"', '%',
   '@', '\x60']

/-- Whether the start of a text would be taken for structure. -/
def startsLikeStructure (s : List Char) : Bool :=
  "---".toList.isPrefixOf s || "...".toList.isPrefixOf s
    || match s with
      | [] => false
      | c :: rest =>
        leadingIndicators.contains c
          || ((c = '?' || c = ':' || c = '-') && endsToken rest)

/-- Whether a text, after its first character, holds a colon that ends a
token or a number sign that begins one. `spaced` tells whether a
separator precedes. -/
def holdsStructure (spaced : Bool) : List Char → Bool
  | [] => false
  | c :: rest =>
    (c = ':' && endsToken rest) || (c = '#' && spaced)
      || holdsStructure (isSeparator c) rest

/-- Whether two neighbouring characters of a text satisfy two tests. -/
def hasNeighbours (p q : Char → Bool) : List Char → Bool
  | c :: d :: rest => (p c && q d) || hasNeighbours p q (d :: rest)
  | _ => false

/-- A plain blank. -/
def isSpace (c : Char) : Bool := c = ' '

/-- Whether a text may be written without quotes, apart from reading back
as something else. -/
def allowsPlain (s : List Char) : Bool :=
  !startsLikeStructure s
    && !(match s with
      | [] => false
      | c :: rest => holdsStructure (isSeparator c) rest)
    && !(s.head?.any isSpace) && !(s.getLast?.any isSpace)
    && !s.any isBreak && !s.any isSpecial

/-- Whether a text may be written in single quotes. -/
def allowsSingle (s : List Char) : Bool :=
  !hasNeighbours isBreak isSpace s && !hasNeighbours isSpace isBreak s
    && !s.any isSpecial

/-- The ways to write a text. -/
inductive Style where
  | plain
  | single
  | double
deriving Inhabited, Repr, DecidableEq

/-- The way a text is written. -/
def styleOf (s : List Char) : Style :=
  if allowsPlain s && !isImplicit s then .plain
  else if allowsSingle s then .single
  else .double

-- =============================================================== escapes

/-- A character that double quotes hold only escaped. -/
def needsEscape (c : Char) : Bool :=
  let n := c.toNat
  c = '"' || c = '\\' || n == 0x85 || n == 0x2028 || n == 0x2029 || n == 0xFEFF
    || !((32 ≤ n && n ≤ 126) || (0xA0 ≤ n && n ≤ 0xD7FF) || (0xE000 ≤ n && n ≤ 0xFFFD))

/-- The one-letter escapes by code point. -/
def letterEscapes : List (Nat × Char) :=
  [(0x00, '0'), (0x07, 'a'), (0x08, 'b'), (0x09, 't'), (0x0A, 'n'), (0x0B, 'v'),
   (0x0C, 'f'), (0x0D, 'r'), (0x1B, 'e'), (0x22, '"'), (0x5C, '\\'), (0x85, 'N'),
   (0xA0, '_'), (0x2028, 'L'), (0x2029, 'P')]

/-- The escape of a character. -/
def escaped (c : Char) : List Char :=
  let n := c.toNat
  '\\' :: match letterEscapes.lookup n with
    | some letter => [letter]
    | none =>
      if n ≤ 0xFF then 'x' :: upperHexDigits 2 n
      else if n ≤ 0xFFFF then 'u' :: upperHexDigits 4 n
      else 'U' :: upperHexDigits 8 n

end ApiScaffold.Yaml
