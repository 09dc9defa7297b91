/-
Blocks: the declarations with a body between braces. The text is walked
line by line. Outside a block an opening brace starts one, and the text
since the last closing brace or comment line is searched for its header.
Inside a block everything up to the next closing brace is the body:
braces do not nest, and those of member modifiers do not count. A block
without a header is left out, but a header on the line of an opening
brace inside it starts a block there. Double quotes hide braces up to
the end of their line, and comment lines, whose first character that is
not blank is a single quote, are passed over.

`Zone` says where the walk stands, `Mark`s record what happened at which
offset, and the blocks are those of the marks.
-/
import ApiScaffold.Diagram.Header
import ApiScaffold.Diagram.Modifier
import ApiScaffold.Text.Lines

namespace ApiScaffold

/-- A block as it stands in the text. -/
structure Block where
  keyword : Keyword
  name : List Char
  body : List Char
deriving Inhabited, Repr, DecidableEq

/-- Where a walk over the text stands. The texts are kept last character
first. -/
inductive Zone where
  /-- Outside any block, after the text that may hold a header. -/
  | outside (pending : List Char)
  /-- Inside a block, after the part of its body read so far. -/
  | inside (header : Option Header) (content : List Char)
deriving Inhabited, Repr, DecidableEq

/-- What a brace did. -/
inductive Mark where
  | opened
  | reopened
  | closed (block : Block)
  | discarded
deriving Inhabited, Repr, DecidableEq

/-- The block that a mark completes. -/
def Mark.block? : Mark → Option Block
  | .closed b => some b
  | _ => none

/-- A comment line. -/
def isComment (line : List Char) : Bool := (trimStart line).head? == some '\''

namespace Zone

/-- The zone after a character that belongs to the text kept. -/
def push (c : Char) : Zone → Zone
  | .outside pending => .outside (c :: pending)
  | .inside header content => .inside header (c :: content)

/-- The zone after a comment line: it stays part of a body, but outside a
block it ends the text in which a header is looked for. -/
def passComment (line : List Char) : Zone → Zone
  | .outside _ => .outside []
  | .inside header content => .inside header (line.reverse ++ content)

/-- Whether a walk stands outside any block. -/
def isOutside : Zone → Bool
  | .outside _ => true
  | .inside _ _ => false

/-- The part of a body that stands on its last line. -/
def lastLine (content : List Char) : List Char :=
  (content.takeWhile (· ≠ '\n')).reverse

/-- The effect of a brace that is neither quoted nor part of a modifier:
the zone after it, and its mark if it does something. -/
def brace (c : Char) (zone : Zone) : Zone × Option Mark :=
  match zone with
  | .outside pending =>
    if c = '\x7b' then (.inside (Header.find? pending.reverse) [], some .opened)
    else (zone.push c, none)
  | .inside none content =>
    if c = '\x7b' then
      match Header.find? (lastLine content) with
      | some h => (.inside (some h) [], some .reopened)
      | none => (zone.push c, none)
    else (.outside [], some .discarded)
  | .inside (some h) content =>
    if c = '\x7b' then (zone.push c, none)
    else (.outside [], some (.closed ⟨h.keyword, h.name, content.reverse⟩))

end Zone

-- ============================================================ the walk

/-- Walk over the characters of a line that is no comment, the first of
them at `offset`. `quoted` tells whether a quote is open and `skip` counts
the characters of a modifier that are still to be passed. -/
def scanChars (quoted : Bool) (skip offset : Nat) (zone : Zone) :
    List Char → Zone × List (Nat × Mark)
  | [] => (zone, [])
  | c :: cs =>
    match skip with
    | skip + 1 => scanChars quoted skip (offset + 1) (zone.push c) cs
    | 0 =>
      if c = '"' then scanChars (!quoted) 0 (offset + 1) (zone.push c) cs
      else if quoted || !Header.isBrace c then
        scanChars quoted 0 (offset + 1) (zone.push c) cs
      else
        match if c = '\x7b' && !zone.isOutside then modifierWidth? cs else none with
        | some width => scanChars false width (offset + 1) (zone.push c) cs
        | none =>
          let (zone, mark) := zone.brace c
          let (last, marks) := scanChars false 0 (offset + 1) zone cs
          (last, (mark.map (offset, ·)).toList ++ marks)

/-- Walk over one line. -/
def scanLine (offset : Nat) (zone : Zone) (line : List Char) :
    Zone × List (Nat × Mark) :=
  if isComment line then (zone.passComment line, [])
  else scanChars false 0 offset zone line

/-- Walk over lines, each followed by a line break. -/
def scanLines (offset : Nat) (zone : Zone) :
    List (List Char) → Zone × List (Nat × Mark)
  | [] => (zone, [])
  | line :: rest =>
    let (zone, marks) := scanLine offset zone line
    let (last, more) := scanLines (offset + line.length + 1) (zone.push '\n') rest
    (last, marks ++ more)

/-- Walk over a normalised text. -/
def scanText (text : List Char) : Zone × List (Nat × Mark) :=
  scanLines 0 (.outside []) (lines text)

/-- The blocks of a normalised text, in order. -/
def blocksIn (text : List Char) : List Block :=
  (scanText text).2.filterMap fun (_, mark) => mark.block?

-- ============================================================== bodies

/-- The lines of a body, trimmed, without blank ones. -/
def contentLines (body : List Char) : List (List Char) :=
  ((lines body).map trim).filter (!·.isEmpty)

/-- The text without the semicolons at its end. -/
def dropSemicolons (s : List Char) : List Char :=
  (s.reverse.dropWhile (· == ';')).reverse

/-- The values of an enumeration's body: separated by line breaks or
commas, with optional semicolons at the ends of lines. -/
def enumValues (body : List Char) : List (List Char) :=
  (contentLines body).flatMap fun line =>
    if line.head? == some '\'' then []
    else ((pieces ',' (dropSemicolons line)).map trim).filter (!·.isEmpty)

end ApiScaffold
