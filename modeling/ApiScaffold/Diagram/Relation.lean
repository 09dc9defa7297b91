/-
Relation lines. A line is cut at its first arrow; the text on each side
is an end of the relation, made of a name and an optional multiplicity,
quoted or bare, in any order. A label after a colon on the right is
dropped. What is neither a multiplicity nor blank is a name, and the last
one counts, as does the last multiplicity.
-/
import ApiScaffold.Diagram.Cardinality
import ApiScaffold.Text.Lines

namespace ApiScaffold

-- ================================================================= ends

/-- One end of a relation. -/
structure RelationEnd where
  name : List Char
  cardinality : Option (List Char)
deriving Inhabited, Repr, DecidableEq

/-- A character that is neither blank nor absent. -/
def isInk (c : Char) : Bool := !isBlank c

/-- The tokens of an end: quoted spans and runs of characters that are
not blank. -/
def endTokens (s : List Char) : List (List Char) :=
  match s with
  | [] => []
  | c :: cs =>
    if isBlank c then endTokens cs
    else if c = '"' && cs.contains '"' then
      (c :: cs.takeWhile (· ≠ '"') ++ ['"'])
        :: endTokens ((cs.dropWhile (· ≠ '"')).drop 1)
    else (c :: cs.takeWhile isInk) :: endTokens (cs.dropWhile isInk)
termination_by s.length
decreasing_by
  · simp
  · have := (List.dropWhile_suffix (· ≠ '"') (l := cs)).length_le
    simp only [List.length_drop, List.length_cons]
    omega
  · have := (List.dropWhile_suffix isInk (l := cs)).length_le
    simp only [List.length_cons]
    omega

/-- A bare numeric multiplicity: digits, dots and stars with a digit
among them. -/
def isNumericToken (token : List Char) : Bool :=
  token.all (fun c => c.isDigit || c = '.' || c = '*') && token.any Char.isDigit

/-- The text between the quotes of a quoted token. -/
def unquote? (token : List Char) : Option (List Char) :=
  match token with
  | '"' :: rest => match rest.reverse with
    | '"' :: inner => some inner.reverse
    | _ => none
  | _ => none

/-- The multiplicity that a token gives; none for a name. -/
def tokenCardinality? (token : List Char) : Option (List Char) :=
  match unquote? token with
  | some inner => some (trim inner)
  | none => if token = ['*'] ∨ isNumericToken token then some token else none

/-- The end that a text describes; none where it has no name. -/
def RelationEnd.ofText? (s : List Char) : Option RelationEnd :=
  let tokens := endTokens s
  match (tokens.filter fun t => (tokenCardinality? t).isNone).getLast? with
  | none => none
  | some name => some ⟨name, (tokens.filterMap tokenCardinality?).getLast?⟩

/-- The text before its first colon outside quotes. -/
def beforeLabel (quoted : Bool) : List Char → List Char
  | [] => []
  | c :: cs =>
    if c = ':' && !quoted then []
    else c :: beforeLabel (quoted != (c == '"')) cs

-- ================================================================ lines

/-- What a line says about relations. -/
inductive RelationLine where
  /-- The line is blank, a comment, or has no arrow between two texts. -/
  | absent
  /-- An end has no name. -/
  | nameless
  | between (source : RelationEnd) (arrow : Arrow) (target : RelationEnd)
deriving Inhabited, Repr, DecidableEq

/-- Read a line without its multiplicities. -/
def RelationLine.ofLine (line : List Char) : RelationLine :=
  let s := trim line
  if s.isEmpty || s.head? == some '\'' then .absent
  else match Arrow.find? s with
    | none => .absent
    | some cut =>
      let left := trim cut.left
      let right := trim (beforeLabel false cut.right)
      if left.isEmpty || right.isEmpty then .absent
      else match RelationEnd.ofText? left, RelationEnd.ofText? right with
        | some source, some target => .between source cut.arrow target
        | _, _ => .nameless

/-- The relation between two ends; the multiplicity of the source is read
first. -/
def Relation.ofEnds (source : RelationEnd) (arrow : Arrow) (target : RelationEnd) :
    Except NumeralTooLong Relation := do
  let fromCardinality ← Cardinality.ofText? source.cardinality
  let toCardinality ← Cardinality.ofText? target.cardinality
  return {
    source := String.ofList source.name
    target := String.ofList target.name
    kind := RelationKind.ofSymbol arrow.text
    symbol := arrow.text
    fromCardinality, toCardinality }

/-- The relation of a line, if it encodes one. -/
def Relation.ofLine? (line : List Char) : Except NumeralTooLong (Option Relation) :=
  match RelationLine.ofLine line with
  | .between source arrow target => (Relation.ofEnds source arrow target).map some
  | _ => .ok none

/-- The relations of lines, in order. -/
def relationsOfLines : List (List Char) → Except NumeralTooLong (List Relation)
  | [] => .ok []
  | line :: rest => do
    let relation ← Relation.ofLine? line
    let more ← relationsOfLines rest
    return relation.toList ++ more

/-- The relations of a text, in the order of its lines. -/
def findRelations (text : List Char) : Except NumeralTooLong (List Relation) :=
  relationsOfLines (lines text)

/-- The lines with an arrow but without a name on some side, trimmed, up
to the line at which reading fails. -/
def namelessLines : List (List Char) → List (List Char)
  | [] => []
  | line :: rest => match Relation.ofLine? line with
    | .ok _ =>
      if RelationLine.ofLine line = .nameless then trim line :: namelessLines rest
      else namelessLines rest
    | .error _ => []

end ApiScaffold
