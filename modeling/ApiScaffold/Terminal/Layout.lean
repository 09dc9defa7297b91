/-
Text laid out on a terminal. A line that is too wide is broken before the
first word that no longer fits; blanks stay with the word before them and
are dropped at the end of a line that has more characters than the width.
A word wider than the terminal is cut wherever the edge falls, or stands
alone on its line and is cut short.
-/
import ApiScaffold.Terminal.Column
import ApiScaffold.Text.Blank
import ApiScaffold.Text.Lines

namespace ApiScaffold

/-- The columns of the terminal. -/
def terminalColumns : Nat := 200

/-- Tabs replaced by blanks up to the next multiple of eight columns;
`position` counts the columns so far. -/
def expandTabs (position : Nat) : List Char → List Char
  | [] => []
  | c :: cs =>
    if c = '\t' then
      let blanks := 8 - position % 8
      List.replicate blanks ' ' ++ expandTabs (position + blanks) cs
    else c :: expandTabs (position + charColumns c) cs

-- ================================================================ words

/-- Leading blanks joined to the first word. -/
def joinLeading : List (List Char) → List (List Char)
  | blank :: word :: rest => if blank.all isBlank then (blank ++ word) :: rest
    else blank :: word :: rest
  | words => words

/-- Put a character in front of words. A word is ink with the blanks
after it, so a blank before ink ends a word. -/
def addToWords (c : Char) : List (List Char) → List (List Char)
  | (d :: word) :: rest =>
    if isBlank c && !isBlank d then [c] :: (d :: word) :: rest
    else (c :: d :: word) :: rest
  | words => [c] :: words

/-- The words of a line, each with the blanks after it, and the first also
with those before it. -/
def wordsOf (line : List Char) : List (List Char) :=
  joinLeading (line.foldr addToWords [])

-- ================================================================ lines

/-- A word cut so that each part fits into `width` columns. `used` holds
the columns of the current part. -/
def cutWord (width used : Nat) : List Char → List (List Char)
  | [] => [[]]
  | c :: cs =>
    let size := charColumns c
    if width < used + size then match cutWord width size cs with
      | part :: rest => [] :: (c :: part) :: rest
      | [] => [[], [c]]
    else match cutWord width (used + size) cs with
      | part :: rest => (c :: part) :: rest
      | [] => [[c]]

/-- What becomes of a word that is wider than a line. -/
inductive WideWord where
  /-- It goes on on the next line. -/
  | goesOn
  /-- It has a line of its own. -/
  | standsAlone
deriving Inhabited, Repr, DecidableEq

/-- Lay out words on lines. `line` is the current line. -/
def layWords (wide : WideWord) (width : Nat) (line : List Char) :
    List (List Char) → List (List Char)
  | [] => [line]
  | word :: rest =>
    let needed := columns (trimEnd word)
    let before := if line.isEmpty then [] else [line]
    if needed + columns line ≤ width then layWords wide width (line ++ word) rest
    else if needed ≤ width then before ++ layWords wide width word rest
    else match wide with
      | .goesOn =>
        let parts := cutWord width 0 word
        before ++ parts.dropLast
          ++ layWords wide width (parts.getLast?.getD []) rest
      | .standsAlone => before ++ layWords wide width word rest

/-- A line without blanks at its end, as many as it has characters more
than `width`. -/
def dropOverhang (width : Nat) (line : List Char) : List Char :=
  let trailing := line.length - (trimEnd line).length
  line.take (line.length - min (line.length - width) trailing)

/-- The characters at the start of a line that fit into `width` columns;
half of a wide character is a blank. -/
def takeColumns : Nat → List Char → List Char
  | _, [] => []
  | width, c :: cs =>
    let size := charColumns c
    if size ≤ width then c :: takeColumns (width - size) cs
    else List.replicate width ' '

/-- The lines that a text takes. -/
def layOut (wide : WideWord) (width : Nat) (text : List Char) : List (List Char) :=
  (lines text).flatMap fun line =>
    (layWords wide width [] (wordsOf (expandTabs 0 line))).map (dropOverhang width)

/-- The lines that a text takes on the terminal. -/
def layOutOnTerminal (text : List Char) : List (List Char) :=
  (layOut .goesOn terminalColumns text).map fun line =>
    if columns line ≤ terminalColumns then line else takeColumns terminalColumns line

end ApiScaffold
