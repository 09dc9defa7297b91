/-
Writing YAML in block style. Mappings and sequences go one entry to a
line, two blanks deeper than their parent, except that a sequence under a
key stays at the depth of the key. Long scalars are folded at single
blanks once the column has passed 80; a key is never folded, and a key
that is empty, long or of several lines is written after a question
mark.

The pen keeps what has been written and the facts that decide about the
next separator: the column, whether a blank stands before it, and
whether only indentation and indicators stand on its line.
-/
import ApiScaffold.Json.Printer
import ApiScaffold.Yaml.Style

namespace ApiScaffold.Yaml

/-- The column after which lines are folded. -/
def bestWidth : Nat := 80

-- =============================================================== the pen

/-- What has been written, last character first, and where the next
character goes. -/
structure Pen where
  written : List Char := []
  column : Nat := 0
  blank : Bool := true
  fresh : Bool := true
deriving Inhabited, Repr, DecidableEq

namespace Pen

/-- Write characters. -/
def put (p : Pen) (s : List Char) : Pen :=
  { p with written := s.reverse ++ p.written, column := p.column + s.length }

/-- End the line with a break character. -/
def breakLine (p : Pen) (c : Char) : Pen :=
  { written := c :: p.written, column := 0, blank := true, fresh := true }

/-- Go to a depth, on a new line unless only indentation up to there
stands on this one. -/
def indentTo (p : Pen) (depth : Nat) : Pen :=
  let p :=
    if !p.fresh || p.column > depth || (p.column == depth && !p.blank) then
      p.breakLine '\n'
    else p
  if p.column < depth then
    { p.put (List.replicate (depth - p.column) ' ') with blank := true }
  else p

/-- Write an indicator, after a blank if one is needed. `blank` tells
whether it counts as one, and `fresh` whether the line still holds
nothing but indentation and indicators. -/
def indicator (p : Pen) (s : List Char) (spaced blank fresh : Bool) : Pen :=
  { p.put (if p.blank || !spaced then s else ' ' :: s) with
    blank := blank, fresh := p.fresh && fresh }

/-- The pen inside a word. -/
def midLine (p : Pen) : Pen := { p with blank := false, fresh := false }

end Pen

-- =============================================================== scalars

/-- Runs of characters of one kind: blanks, line breaks, or neither. -/
def runs (s : List Char) : List (List Char) :=
  s.splitBy fun c d => isSpace c == isSpace d && isBreak c == isBreak d

/-- Write the runs of a plain text. -/
def putPlainRuns (depth : Nat) (fold : Bool) (p : Pen) : List (List Char) → Pen
  | [] => p
  | run :: rest =>
    let p :=
      if run == [' '] && fold && p.column > bestWidth then (p.indentTo depth).midLine
      else p.put run
    putPlainRuns depth fold p rest

/-- Write plain text. -/
def putPlain (depth : Nat) (fold : Bool) (p : Pen) (s : List Char) : Pen :=
  let p := if p.blank then p else p.put [' ']
  putPlainRuns depth fold p.midLine (runs s)

/-- A run of line breaks inside single quotes: one break more than the
reader keeps, if it starts with a line feed. -/
def putBreaks (depth : Nat) (p : Pen) (run : List Char) : Pen :=
  let p := if run.head? == some '\n' then p.breakLine '\n' else p
  (run.foldl Pen.breakLine p).indentTo depth

/-- Write the runs of a text in single quotes, doubling the quotes in it.
`first` tells whether no run precedes. -/
def putSingleRuns (depth : Nat) (fold first : Bool) (p : Pen) :
    List (List Char) → Pen
  | [] => p
  | run :: rest =>
    let p :=
      if run.any isBreak then putBreaks depth p run
      else if run == [' '] && fold && !first && !rest.isEmpty && p.column > bestWidth
        then p.indentTo depth
      else p.put (run.flatMap fun c => if c = '\'' then ['\'', '\''] else [c])
    putSingleRuns depth fold false p rest

/-- Write text in single quotes. -/
def putSingle (depth : Nat) (fold : Bool) (p : Pen) (s : List Char) : Pen :=
  let p := p.indicator ['\''] true false false
  (putSingleRuns depth fold true p (runs s)).indicator ['\''] false false false

/-- Continue a text in double quotes on a new line; a blank that comes
next must be escaped to count. -/
def continueLine (depth : Nat) (p : Pen) (next : Option Char) : Pen :=
  let p := ((p.put ['\\']).indentTo depth).midLine
  if next == some ' ' then p.put ['\\'] else p

/-- Write the characters of a text in double quotes. `chunk` holds the
characters not yet written, last first, and `first` tells whether the
next character is the first one. -/
def putDoubleChars (depth : Nat) (fold first : Bool) (p : Pen) (chunk : List Char) :
    List Char → Pen
  | [] => p.put chunk.reverse
  | c :: rest =>
    let mayFold := fold && !first && !rest.isEmpty
    if needsEscape c then
      let p := (p.put chunk.reverse).put (escaped c)
      let p :=
        if mayFold && p.column > bestWidth + 1 then continueLine depth p rest.head?
        else p
      putDoubleChars depth fold false p [] rest
    else if mayFold && (c = ' ' || chunk.isEmpty)
        && p.column + chunk.length > bestWidth then
      let p := continueLine depth (p.put chunk.reverse) (some c)
      putDoubleChars depth fold false p [c] rest
    else putDoubleChars depth fold false p (c :: chunk) rest

/-- Write text in double quotes. -/
def putDouble (depth : Nat) (fold : Bool) (p : Pen) (s : List Char) : Pen :=
  let p := p.indicator ['"'] true false false
  (putDoubleChars depth fold true p [] s).indicator ['"'] false false false

/-- Write a text in its style. -/
def putText (depth : Nat) (fold : Bool) (p : Pen) (s : List Char) : Pen :=
  match styleOf s with
  | .plain => putPlain depth fold p s
  | .single => putSingle depth fold p s
  | .double => putDouble depth fold p s

/-- Doubles in YAML text. -/
def floatStyle : FloatStyle := ⟨".inf", ".nan", true⟩

/-- The text of a scalar that is not a string. -/
def wordOf : Json → List Char
  | .bool true => "true".toList
  | .bool false => "false".toList
  | .int n => Json.intText n
  | .float x => (floatStyle.text x).toList
  | _ => "null".toList

-- ================================================================= nodes

/-- Where a node stands. -/
inductive Place where
  | root
  | item
  | value
deriving Inhabited, Repr, DecidableEq

/-- The most characters of a key that is written before its colon. -/
def keyLimit : Nat := 122

/-- Whether a key is written before its colon. -/
def isSimpleKey (key : List Char) : Bool :=
  !key.isEmpty && key.length ≤ keyLimit && !key.any isBreak

/-- Write a key and its colon at a depth. -/
def putKey (depth : Nat) (p : Pen) (key : List Char) : Pen :=
  let p := p.indentTo depth
  if isSimpleKey key then
    (putText (depth + 2) false p key).indicator [':'] false false false
  else
    let p := putText (depth + 2) true (p.indicator ['?'] true false true) key
    (p.indentTo depth).indicator [':'] true false true

/-- The depth of the block under a node at a depth; nothing is above the
root. -/
def inner : Option Nat → Nat
  | none => 0
  | some depth => depth + 2

/-- The depth at which a scalar is continued. -/
def scalarDepth : Option Nat → Nat
  | none => 2
  | some depth => depth + 2

mutual

/-- Write a node under a block at `depth`. -/
def putNode (place : Place) (depth : Option Nat) (p : Pen) : Json → Pen
  | .str s => putText (scalarDepth depth) true p s.toList
  | .arr [] =>
    (p.indicator ['['] true true false).indicator [']'] false false false
  | .arr (item :: items) =>
    let here :=
      if place == .value && !p.fresh then depth.getD 0 else inner depth
    putItems here (putNode .item (some here)
      ((p.indentTo here).indicator ['-'] true false true) item) items
  | .obj [] =>
    (p.indicator ['\x7b'] true true false).indicator ['\x7d'] false false false
  | .obj ((key, value) :: fields) =>
    let here := inner depth
    putFields here
      (putNode .value (some here) (putKey here p key.toList) value) fields
  | .null => putPlain (scalarDepth depth) true p (wordOf .null)
  | .bool b => putPlain (scalarDepth depth) true p (wordOf (.bool b))
  | .int n => putPlain (scalarDepth depth) true p (wordOf (.int n))
  | .float x => putPlain (scalarDepth depth) true p (wordOf (.float x))

/-- Write the items after the first. -/
def putItems (depth : Nat) (p : Pen) : List Json → Pen
  | [] => p
  | item :: items =>
    putItems depth (putNode .item (some depth)
      ((p.indentTo depth).indicator ['-'] true false true) item) items

/-- Write the fields after the first. -/
def putFields (depth : Nat) (p : Pen) : List (String × Json) → Pen
  | [] => p
  | (key, value) :: fields =>
    putFields depth
      (putNode .value (some depth) (putKey depth p key.toList) value) fields

end

-- ============================================================= documents

/-- Whether a document is one plain scalar, after which its end is
marked. -/
def endsOpen : Json → Bool
  | .str s => styleOf s.toList == .plain
  | .arr _ => false
  | .obj _ => false
  | _ => true

/-- The YAML text of a value. -/
def text (j : Json) : String :=
  let p := (putNode .root none {} j).indentTo 0
  let p := if endsOpen j then (p.put "...".toList).breakLine '\n' else p
  String.ofList p.written.reverse

end ApiScaffold.Yaml
