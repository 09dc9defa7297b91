/-
Arrows: the fourteen spellings of a line between two declarations, and
the search for the first one in a line. Quoted spans are skipped; at one
place the longest arrow wins. Two dots between two characters of a
multiplicity are a range and no arrow, and the `o` of an arrow must not
touch an identifier.
-/
import ApiScaffold.Diagram.Basic
import ApiScaffold.Text.Word

namespace ApiScaffold

/-- The spellings of an arrow. The side names the end at which its head
or diamond stands. -/
inductive Arrow where
  | extendsLeft
  | extendsRight
  | implementsLeft
  | implementsRight
  | composesLeft
  | composesRight
  | aggregatesLeft
  | aggregatesRight
  | dependsLeft
  | dependsRight
  | navigatesLeft
  | navigatesRight
  | solid
  | dotted
deriving Inhabited, Repr, DecidableEq

namespace Arrow

/-- An arrow as it is written. -/
def text : Arrow → String
  | extendsLeft => "<|--"
  | extendsRight => "--|>"
  | implementsLeft => "<|.."
  | implementsRight => "..|>"
  | composesLeft => "*--"
  | composesRight => "--*"
  | aggregatesLeft => "o--"
  | aggregatesRight => "--o"
  | dependsLeft => "<.."
  | dependsRight => "..>"
  | navigatesLeft => "<--"
  | navigatesRight => "-->"
  | solid => "--"
  | dotted => ".."

/-- All arrows; of two that can stand at one place the longer is
first. -/
def all : List Arrow :=
  [extendsLeft, extendsRight, implementsLeft, implementsRight, composesLeft,
   composesRight, aggregatesLeft, aggregatesRight, dependsLeft, dependsRight,
   navigatesLeft, navigatesRight, solid, dotted]

-- ============================================================ one place

/-- A character that may stand in a bare multiplicity beside its two
dots. -/
def isCountChar (c : Char) : Bool := c.isDigit || c = '*'

/-- Whether a character before or after an arrow continues an
identifier. -/
def continuesWord (c : Option Char) : Bool := c.any isWord

/-- Whether an arrow that is spelled at a place is rejected there, given
the characters before and after it. -/
def isRejected (a : Arrow) (before after : Option Char) : Bool :=
  match a with
  | dotted => before.any isCountChar && after.any isCountChar
  | aggregatesLeft => continuesWord before
  | aggregatesRight => continuesWord after
  | _ => false

/-- Whether an arrow stands at the start of the text, given the character
before it. -/
def stands (before : Option Char) (s : List Char) (a : Arrow) : Bool :=
  a.text.toList.isPrefixOf s && !a.isRejected before (s.drop a.text.length).head?

/-- The arrow at the start of the text. -/
def at? (before : Option Char) (s : List Char) : Option Arrow :=
  all.find? (stands before s)

-- =============================================================== search

/-- A line cut at an arrow. -/
structure Cut where
  left : List Char
  arrow : Arrow
  right : List Char
deriving Inhabited, Repr, DecidableEq

/-- The first arrow of a text that follows the character `before`.
`quoted` tells whether a quote is open. -/
def findFrom? (before : Option Char) (quoted : Bool) : List Char → Option Cut
  | [] => none
  | c :: cs =>
    match if quoted || c = '"' then none else at? before (c :: cs) with
    | some a => some ⟨[], a, (c :: cs).drop a.text.length⟩
    | none =>
      (findFrom? (some c) (quoted != (c == '"')) cs).map fun cut =>
        { cut with left := c :: cut.left }

/-- The first arrow of a line outside quoted spans. -/
def find? (line : List Char) : Option Cut := findFrom? none false line

end Arrow

-- =============================================================== kinds

/-- Whether one text occurs in another. -/
def occursIn (part : List Char) : List Char → Bool
  | [] => part.isEmpty
  | c :: cs => part.isPrefixOf (c :: cs) || occursIn part cs

/-- The kind of relation that a symbol stands for: that of the first
family of which a spelling occurs in it. -/
def RelationKind.ofSymbol (symbol : String) : RelationKind :=
  let has (a : Arrow) : Bool := occursIn a.text.toList symbol.toList
  if has .extendsLeft || has .extendsRight then .inheritance
  else if has .composesLeft || has .composesRight then .composition
  else if has .aggregatesLeft || has .aggregatesRight then .aggregation
  else if has .dependsLeft || has .dependsRight || has .implementsLeft
    || has .implementsRight then .dependency
  else if has .solid || has .dotted then .association
  else .unknown

end ApiScaffold
