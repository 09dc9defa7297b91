/-
Marked-up text. A tag stands in square brackets and starts with a
lower-case letter, a slash, `#` or `@`; it changes the looks of what
follows and is not shown. A tag with a slash closes the last open tag, or
the last one of its look. A backslash before a tag makes it plain text,
and two backslashes there stand for one.
-/
import ApiScaffold.Failure
import ApiScaffold.Terminal.Look

namespace ApiScaffold

namespace Markup

/-- A piece of marked-up text. -/
inductive Piece where
  | plain (text : List Char)
  | opening (look : String)
  /-- Without a look, it closes the last open tag. -/
  | closing (look : Option String)
deriving Inhabited, Repr, DecidableEq

-- ================================================================ tags

/-- Whether a character may start a tag. -/
def startsTag (c : Char) : Bool :=
  ('a' ≤ c && c ≤ 'z') || c = '#' || c = '/' || c = '@'

/-- The inside of a tag up to its closing bracket, and the rest; an
opening bracket must not come first. -/
def tagInside? : List Char → Option (List Char × List Char)
  | [] => none
  | c :: cs =>
    if c = ']' then some ([], cs)
    else if c = '[' then none
    else (tagInside? cs).map fun (inside, rest) => (c :: inside, rest)

/-- The tag at the start of a text: its inside and the rest. -/
def tag? : List Char → Option (List Char × List Char)
  | '[' :: c :: cs =>
    if startsTag c then (tagInside? cs).map fun (inside, rest) => (c :: inside, rest)
    else none
  | _ => none

/-- The piece that a tag is. What comes before an equals sign describes
the look. -/
def ofTag (inside : List Char) : Piece :=
  match inside.takeWhile (· ≠ '=') with
  | '/' :: look =>
    let look := trim look
    .closing (if look.isEmpty then none else some (Look.normalForm (String.ofList look)))
  | look => .opening (Look.normalForm (String.ofList look))

-- ============================================================== reading

/-- The pieces of a text. `slashes` counts the backslashes just before
the text and `skip` the characters that belong to a tag already read. -/
def piecesFrom (slashes skip : Nat) : List Char → List Piece
  | [] => [.plain (List.replicate slashes '\\')]
  | c :: cs =>
    if 0 < skip then piecesFrom 0 (skip - 1) cs
    else if c = '\\' then piecesFrom (slashes + 1) 0 cs
    else match tag? (c :: cs) with
      | some (inside, _) =>
        let kept := .plain (List.replicate (slashes / 2) '\\')
        if slashes % 2 = 1 then
          kept :: .plain ('[' :: inside ++ [']']) :: piecesFrom 0 (inside.length + 1) cs
        else kept :: ofTag inside :: piecesFrom 0 (inside.length + 1) cs
      | none =>
        -- a backslash before a bracket that opens no tag is not shown
        let shown := if c = '[' then slashes - 1 else slashes
        .plain (List.replicate shown '\\' ++ [c]) :: piecesFrom 0 0 cs

/-- Close a tag. The open tags are listed last first. -/
def close (isOpen : List String) : Option String → Option (List String)
  | none => match isOpen with
    | _ :: rest => some rest
    | [] => none
  | some look => if isOpen.contains look then some (isOpen.erase look) else none

/-- The text of pieces without the tags, if every closing tag has one to
close. -/
def plainOf? (isOpen : List String) : List Piece → Option (List Char)
  | [] => some []
  | .plain text :: rest => (plainOf? isOpen rest).map (text ++ ·)
  | .opening look :: rest => plainOf? (look :: isOpen) rest
  | .closing look :: rest => (close isOpen look).bind fun left => plainOf? left rest

/-- Characters that a terminal would act on. -/
def isTerminalControl (c : Char) : Bool :=
  let n := c.toNat
  n == 7 || n == 8 || n == 11 || n == 12 || n == 13

/-- What is shown of marked-up text. -/
def shown (text : String) : Outcome (List Char) :=
  match plainOf? [] (piecesFrom 0 0 text.toList) with
  | some cs => .ok (cs.filter fun c => !isTerminalControl c)
  | none => .error .unmatchedTag

end Markup

end ApiScaffold
