/-
Line structure. Diagram text is normalised first: byte order marks at
its start are dropped and every line ending becomes a line feed. After
that a line ends at a line feed and nowhere else.
-/

namespace ApiScaffold

/-- The parts of a text between the occurrences of a separator; there is
always one more part than separators. -/
def pieces (sep : Char) (cs : List Char) : List (List Char) :=
  cs.foldr
    (fun c parts =>
      if c = sep then [] :: parts
      else match parts with
        | [] => [[c]]
        | part :: rest => (c :: part) :: rest)
    [[]]

/-- The lines of a normalised text. -/
def lines (cs : List Char) : List (List Char) := pieces '\n' cs

-- ======================================================= normalisation

/-- Line endings made uniform: a carriage return, with the line feed
that may follow it, becomes one line feed. -/
def unifyBreaks : List Char → List Char
  | [] => []
  | '\r' :: '\n' :: cs => '\n' :: unifyBreaks cs
  | '\r' :: cs => '\n' :: unifyBreaks cs
  | c :: cs => c :: unifyBreaks cs

/-- The text without byte order marks at its start and with uniform line
endings. -/
def normalize (cs : List Char) : List Char :=
  unifyBreaks (cs.dropWhile (· == '\uFEFF'))

/-- Normalising a string. -/
def normalizedText (s : String) : String := String.ofList (normalize s.toList)

/-- A file's text as it is read: uniform line endings, byte order marks
kept. -/
def unifyBreaksText (s : String) : String :=
  String.ofList (unifyBreaks s.toList)

-- ======================================================= counting lines

/-- A character that ends a line for the purpose of counting lines. -/
def isLineBoundary (c : Char) : Bool :=
  let n := c.toNat
  (10 ≤ n && n ≤ 13) || (28 ≤ n && n ≤ 30) || n == 0x85 || n == 0x2028
    || n == 0x2029

/-- The number of lines of a text; a boundary at its very end does not
start another line. `begun` tells whether a line has begun. -/
def countLinesFrom (begun : Bool) : List Char → Nat
  | [] => if begun then 1 else 0
  | '\r' :: '\n' :: cs => 1 + countLinesFrom false cs
  | c :: cs =>
    if isLineBoundary c then 1 + countLinesFrom false cs
    else countLinesFrom true cs

/-- The number of lines of a text. -/
def countLines (s : String) : Nat := countLinesFrom false s.toList

end ApiScaffold
