/-
Members: each line of a class or interface body is one attribute or one
method. A visibility symbol may stand first, with modifiers before and
after it. A line with an opening parenthesis is a method, any other an
attribute; both start with an identifier, or the line is dropped. The
type after a colon is kept as far as its characters go.
-/
import ApiScaffold.Diagram.Basic
import ApiScaffold.Diagram.Block

namespace ApiScaffold

/-- The access level of a visibility symbol. -/
def Access.ofSymbol? (c : Char) : Option Access :=
  if c = '+' then some .pub
  else if c = '-' then some .priv
  else if c = '#' then some .prot
  else if c = '~' then some .pkg
  else none

/-- The access level of a text that may be a visibility symbol; public
where it is none. -/
def Access.ofSymbol (s : List Char) : Access :=
  match s with
  | [c] => (Access.ofSymbol? c).getD .pub
  | _ => .pub

/-- One line of a body. -/
inductive Member where
  | attribute (a : Attribute)
  | method (m : Method)
deriving Inhabited, Repr, DecidableEq

namespace Member

/-- The attribute of a member line. -/
def attribute? : Member → Option Attribute
  | .attribute a => some a
  | .method _ => none

/-- The method of a member line. -/
def method? : Member → Option Method
  | .attribute _ => none
  | .method m => some m

-- =============================================================== types

/-- A character of a type: an identifier character or a bracket. -/
def isTypeChar (c : Char) : Bool :=
  isWord c || c == '[' || c == ']' || c == '<' || c == '>'

/-- The type after a colon, if the text starts with one and a type
character follows it. -/
def typeAfterColon? (s : List Char) : Option String :=
  match trimStart s with
  | ':' :: rest => match (trimStart rest).takeWhile isTypeChar with
    | [] => none
    | cs => some (String.ofList cs)
  | _ => none

/-- The text after the last occurrence of a character. -/
def afterLast? (c : Char) (s : List Char) : Option (List Char) :=
  if s.contains c then some (s.reverse.takeWhile (· ≠ c)).reverse else none

-- =============================================================== lines

/-- The visibility symbol and the modifiers around it taken off a
line. -/
def unwrap (line : List Char) : Access × List Char :=
  let s := dropModifiers line
  match s with
  | c :: rest => match Access.ofSymbol? c with
    | some access => (access, dropModifiers (trim rest))
    | none => (.pub, dropModifiers s)
  | [] => (.pub, [])

/-- A method, from a line that starts with its name. -/
def readMethod? (access : Access) (s : List Char) : Option Method :=
  let name := s.takeWhile isWord
  match name, trimStart (s.dropWhile isWord) with
  | _ :: _, '(' :: _ =>
    some ⟨String.ofList name, (afterLast? ')' s).bind typeAfterColon?, access⟩
  | _, _ => none

/-- An attribute, from a line that starts with its name. -/
def readAttribute? (access : Access) (s : List Char) : Option Attribute :=
  let name := s.takeWhile isWord
  match name with
  | [] => none
  | _ => some ⟨String.ofList name, typeAfterColon? (s.dropWhile isWord), access⟩

/-- The member of a trimmed line; none for a line that is dropped. -/
def ofLine? (line : List Char) : Option Member :=
  let (access, s) := unwrap line
  if s.contains '(' then (readMethod? access s).map .method
  else (readAttribute? access s).map .attribute

end Member

/-- The members of a body, in order. -/
def membersOf (body : List Char) : List Member :=
  (contentLines body).filterMap Member.ofLine?

/-- The attributes of a body. -/
def attributesOf (body : List Char) : List Attribute :=
  (membersOf body).filterMap Member.attribute?

/-- The methods of a body. -/
def methodsOf (body : List Char) : List Method :=
  (membersOf body).filterMap Member.method?

/-- The lines of a body that are no members. -/
def droppedLines (body : List Char) : List (List Char) :=
  (contentLines body).filter fun line => (Member.ofLine? line).isNone

end ApiScaffold
