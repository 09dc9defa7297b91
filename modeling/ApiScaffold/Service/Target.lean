/-
The target of a request: its path with the dots taken out and its
parameters. Percent escapes in the path are decoded twice, once by the
transport and once by the service.
-/
import ApiScaffold.Text.Hex
import ApiScaffold.Text.Lines
import ApiScaffold.Text.Utf8

namespace ApiScaffold

-- ====================================================== percent escapes

/-- The bytes of a text with its percent escapes decoded. -/
def escapedBytes : List Char → List UInt8
  | [] => []
  | '%' :: a :: b :: cs => match hexValue? a, hexValue? b with
    | some x, some y => (16 * x + y).toUInt8 :: escapedBytes cs
    | _, _ => '%'.val.toUInt8 :: escapedBytes (a :: b :: cs)
  | c :: cs => c.toString.toUTF8.toList ++ escapedBytes cs

/-- A text with its percent escapes decoded. -/
def decodeEscapes (cs : List Char) : List Char := decodeBytes none (escapedBytes cs)

-- =============================================================== target

/-- The target of a request. -/
structure Target where
  path : List Char
  query : List (String × String)
deriving Inhabited, Repr, DecidableEq

/-- The parts of a path without single and double dots. `before` holds
the parts so far, last first. -/
def withoutDots (before : List (List Char)) : List (List Char) → List (List Char)
  | [] => before.reverse
  | part :: rest =>
    if part = ['.'] then withoutDots before rest
    else if part = ['.', '.'] then match before with
      | [] => withoutDots [] rest
      | [[]] => withoutDots [[]] rest
      | _ :: outer => withoutDots outer rest
    else withoutDots (part :: before) rest

/-- The path that parts make. -/
def joinPath (parts : List (List Char)) : List Char := ['/'].intercalate parts

/-- A parameter with its escapes decoded; plus signs are blanks. -/
def queryParameter (text : List Char) : String × String :=
  let decode (cs : List Char) : String :=
    String.ofList (decodeEscapes (cs.map fun c => if c = '+' then ' ' else c))
  (decode (text.takeWhile (· ≠ '=')), decode ((text.dropWhile (· ≠ '=')).drop 1))

/-- A text without the name of a host, which stands after two slashes. -/
def withoutHost : List Char → List Char
  | '/' :: '/' :: cs => cs.dropWhile fun c => c ≠ '/' && c ≠ '?'
  | cs => cs

/-- Read a target. Its path starts with one slash, written or not. -/
def Target.ofText (text : String) : Target :=
  let cs := withoutHost (text.toList.takeWhile (· ≠ '#'))
  let path := (cs.takeWhile (· ≠ '?')).dropWhile (· == '/')
  let path := joinPath (withoutDots [] (pieces '/' ('/' :: path)))
  let query := (cs.dropWhile (· ≠ '?')).drop 1
  { path := decodeEscapes (decodeEscapes path)
    query := ((pieces '&' query).filter fun part => !part.isEmpty).map queryParameter }

end ApiScaffold
