/-
Block headers: a keyword and an identifier, then optionally generics in
angle brackets and a stereotype in double angle brackets, with nothing
but blanks after them. A header is looked for in the text that precedes
an opening brace; the leftmost place from which one reaches the end of
that text counts, and its keyword must not continue an identifier.
-/
import ApiScaffold.Text.Blank
import ApiScaffold.Text.Word

namespace ApiScaffold

/-- The keywords that declare a block. -/
inductive Keyword where
  | classBlock
  | interfaceBlock
  | enumBlock
deriving Inhabited, Repr, DecidableEq

/-- A keyword as it is written. -/
def Keyword.text : Keyword → String
  | .classBlock => "class"
  | .interfaceBlock => "interface"
  | .enumBlock => "enum"

/-- All block keywords. -/
def Keyword.all : List Keyword := [.classBlock, .interfaceBlock, .enumBlock]

/-- A keyword with the declared name. -/
structure Header where
  keyword : Keyword
  name : List Char
deriving Inhabited, Repr, DecidableEq

namespace Header

/-- An opening or closing brace. -/
def isBrace (c : Char) : Bool := c = '\x7b' ∨ c = '\x7d'

/-- An angle bracket or a brace. -/
def isBracket (c : Char) : Bool := c = '<' ∨ c = '>' ∨ isBrace c

/-- The text after generics and the blanks that follow them; the text
itself where no generics stand. -/
def afterGenerics (s : List Char) : List Char :=
  match s with
  | '<' :: rest => match rest.dropWhile (!isBracket ·) with
    | '>' :: rest => trimStart rest
    | _ => s
  | _ => s

/-- Whether the text is one stereotype followed by blanks. A stereotype
holds any characters but braces, even further angle brackets. -/
def isStereotype : List Char → Bool
  | '<' :: '<' :: rest => match (trimEnd rest).reverse with
    | '>' :: '>' :: inner => inner.all (!isBrace ·)
    | _ => false
  | _ => false

/-- Whether the text after a declared name ends the header. -/
def isEnding (s : List Char) : Bool :=
  let rest := afterGenerics (trimStart s)
  rest.isEmpty || isStereotype rest

/-- The header that the text starts with and consists of. -/
def ofKeyword? (k : Keyword) (s : List Char) : Option Header :=
  if k.text.toList.isPrefixOf s then
    match s.drop k.text.length with
    | [] => none
    | c :: rest =>
      let named := trimStart (c :: rest)
      let name := named.takeWhile isWord
      if isBlank c && !name.isEmpty && isEnding (named.dropWhile isWord) then
        some ⟨k, name⟩
      else none
  else none

/-- The header that the text consists of, for any keyword. -/
def whole? (s : List Char) : Option Header := Keyword.all.findSome? (ofKeyword? · s)

/-- The leftmost header that ends the text. `joined` tells whether an
identifier character stands before the text. -/
def findFrom? (joined : Bool) : List Char → Option Header
  | [] => none
  | c :: cs =>
    match if joined then none else whole? (c :: cs) with
    | some h => some h
    | none => findFrom? (isWord c) cs

/-- The leftmost header that ends the text. -/
def find? (s : List Char) : Option Header := findFrom? false s

end Header

end ApiScaffold
