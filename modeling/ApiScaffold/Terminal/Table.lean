/-
Tables of text with a heading. Every column is as wide as its widest
cell and one blank on each side of it, as long as the table fits on the
terminal; otherwise the widest columns give way and their cells take
several lines.
-/
import ApiScaffold.Terminal.Layout

namespace ApiScaffold

/-- On which side of its column a cell stands. -/
inductive Alignment where
  | left
  | right
deriving Inhabited, Repr, DecidableEq

/-- A column of a table. -/
structure TableColumn where
  heading : List Char
  alignment : Alignment := .left
deriving Inhabited, Repr, DecidableEq

/-- A table. -/
structure Table where
  title : List Char
  columns : List TableColumn
  rows : List (List (List Char))
deriving Inhabited, Repr, DecidableEq

/-- The characters of a horizontal border: its line, its start, the
crossing of columns and its end. -/
structure Border where
  line : Char
  start : Char
  crossing : Char
  stop : Char
deriving Inhabited, Repr, DecidableEq

namespace Table

/-- The border above the heading. -/
def top : Border := ⟨'━', '┏', '┳', '┓'⟩

/-- The border below the heading. -/
def middle : Border := ⟨'━', '┡', '╇', '┩'⟩

/-- The border below the rows. -/
def bottom : Border := ⟨'─', '└', '┴', '┘'⟩

-- ============================================================== widths

/-- The columns that a text wants: those of its widest line, where lines
end at every boundary that lines are counted by. -/
def wanted (cell : List Char) : Nat :=
  ((cell.splitOnP isLineBoundary).map ApiScaffold.columns).foldl max 0

/-- A quotient rounded to the nearest number, a half to the even one. -/
def evenQuotient (n d : Nat) : Nat :=
  let q := n / d
  let twice := 2 * (n % d)
  if d < twice || (twice = d && q % 2 = 1) then q + 1 else q

/-- Take `excess` away from the widths that equal `widest`, in equal
shares of at most `limit`; `shares` of them are left. -/
def shrink (widest limit : Nat) (excess shares : Nat) : List Nat → List Nat
  | [] => []
  | w :: rest =>
    if w = widest then
      let share := min limit (evenQuotient excess shares)
      (w - share) :: shrink widest limit (excess - share) (shares - 1) rest
    else w :: shrink widest limit excess shares rest

/-- Shrink the widest columns to the width of the next one, and so on
until all fit into `room`, in at most `rounds` rounds. -/
def fitInto (room : Nat) : Nat → List Nat → List Nat
  | 0, widths => widths
  | rounds + 1, widths =>
    let excess := widths.sum - room
    if excess = 0 then widths
    else
      let widest := widths.foldl max 0
      let next := (widths.filter (· ≠ widest)).foldl max 0
      fitInto room rounds
        (shrink widest (min excess (widest - next)) excess (widths.count widest) widths)

/-- The columns between the edges of the terminal that the bars leave. -/
def room (t : Table) : Nat := terminalColumns - (t.columns.length + 1)

/-- The widths of the columns without the blanks. -/
def widths (t : Table) : List Nat :=
  let asWanted := t.columns.zipIdx.map fun (column, i) =>
    let cells := column.heading :: t.rows.map fun row => row.getD i []
    min t.room ((cells.map wanted).foldl max 0 + 2)
  (fitInto t.room (asWanted.foldr (· + ·) 0) asWanted).map (· - 2)

-- =============================================================== lines

/-- Texts between a start, separators and an end. -/
def joined (start separator stop : Char) (cells : List (List Char)) : List Char :=
  start :: [separator].intercalate cells ++ [stop]

/-- A border for columns of the given widths. -/
def borderLine (b : Border) (widths : List Nat) : List Char :=
  joined b.start b.crossing b.stop (widths.map fun w => List.replicate (w + 2) b.line)

/-- A line cut short to a width; dots show that something is missing. -/
def shortened (width : Nat) (line : List Char) : List Char :=
  if ApiScaffold.columns line ≤ width then line
  else takeColumns (width - 1) line ++ ['…']

/-- A line of a cell in its column. -/
def cellLine (alignment : Alignment) (width : Nat) (line : List Char) : List Char :=
  let line := shortened width (match alignment with
    | .left => line
    | .right => trimEnd line)
  let padding := List.replicate (width - ApiScaffold.columns line) ' '
  match alignment with
  | .left => ' ' :: line ++ padding ++ [' ']
  | .right => ' ' :: padding ++ line ++ [' ']

/-- The lines of a row of cells between bars. Cells start at the top, and
those with fewer lines than others are filled up with blanks. -/
def rowLines (bar : Char) (alignments : List Alignment) (widths : List Nat)
    (cells : List (List Char)) : List (List Char) :=
  let blocks := ((alignments.zip widths).zip cells).map fun ((a, w), cell) =>
    (w, (layOut .standsAlone w cell).map (cellLine a w))
  let height := (blocks.map fun (_, block) => block.length).foldl max 0
  (List.range height).map fun i =>
    joined bar bar bar (blocks.map fun (w, block) =>
      block.getD i (List.replicate (w + 2) ' '))

/-- A text in the middle of a line; an odd blank goes to its right. -/
def centered (width : Nat) (text : List Char) : List Char :=
  let space := width - ApiScaffold.columns text
  List.replicate (space / 2) ' ' ++ text ++ List.replicate (space - space / 2) ' '

/-- The lines of a table. -/
def lines (t : Table) : List (List Char) :=
  let widths := t.widths
  let alignments := t.columns.map TableColumn.alignment
  let topLine := borderLine top widths
  [centered topLine.length t.title, topLine]
    ++ rowLines '┃' alignments widths (t.columns.map TableColumn.heading)
    ++ [borderLine middle widths]
    ++ t.rows.flatMap (rowLines '│' alignments widths)
    ++ [borderLine bottom widths]

end Table

end ApiScaffold
