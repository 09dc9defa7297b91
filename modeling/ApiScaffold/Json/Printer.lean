/-
Writing JSON. The indented form puts every item and field on a line of
its own, two blanks deeper than its parent, and leaves characters other
than controls, quotes and backslashes as they are. The compact form is
one line of ASCII.
-/
import ApiScaffold.Json.Basic
import ApiScaffold.Number.Shortest

namespace ApiScaffold

namespace Json

/-- Doubles in JSON text. -/
def floatStyle : FloatStyle := ⟨"Infinity", "NaN", false⟩

/-- Decimal digits of an integer, with its sign if negative. -/
def intText (n : Int) : List Char :=
  if n < 0 then '-' :: decimal n.natAbs else decimal n.natAbs

-- ============================================================= strings

/-- The short escape of a character, if it must be escaped and has one. -/
def shortEscape? (c : Char) : Option Char :=
  if c = '"' then some '"'
  else if c = '\\' then some '\\'
  else if c = '\n' then some 'n'
  else if c = '\r' then some 'r'
  else if c = '\t' then some 't'
  else if c = '\x08' then some 'b'
  else if c = '\x0c' then some 'f'
  else none

/-- One character inside a string. -/
def stringChar (c : Char) : List Char :=
  match shortEscape? c with
  | some e => ['\\', e]
  | none => if c.toNat < 32 then '\\' :: 'u' :: hexDigits 4 c.toNat else [c]

/-- One character inside a string of ASCII text: what lies outside the
printable ASCII range is written as one or two UTF-16 units. -/
def asciiChar (c : Char) : List Char :=
  let n := c.toNat
  match shortEscape? c with
  | some e => ['\\', e]
  | none =>
    if 32 ≤ n && n < 127 then [c]
    else if n < 0x10000 then '\\' :: 'u' :: hexDigits 4 n
    else
      '\\' :: 'u' :: hexDigits 4 (0xD800 + (n - 0x10000) / 0x400)
        ++ '\\' :: 'u' :: hexDigits 4 (0xDC00 + (n - 0x10000) % 0x400)

/-- A string in quotes. -/
def stringText (s : String) : List Char :=
  '"' :: s.toList.flatMap stringChar ++ ['"']

/-- A string in quotes, in ASCII. -/
def asciiText (s : String) : List Char :=
  '"' :: s.toList.flatMap asciiChar ++ ['"']

-- ======================================================= indented form

/-- A line break followed by `depth` blanks. -/
def lineBreak (depth : Nat) : List Char := '\n' :: List.replicate depth ' '

mutual

/-- A value whose first line stands at depth `depth`. -/
def indentedAt (depth : Nat) : Json → List Char
  | .null => "null".toList
  | .bool true => "true".toList
  | .bool false => "false".toList
  | .int n => intText n
  | .float x => (floatStyle.text x).toList
  | .str s => stringText s
  | .arr [] => ['[', ']']
  | .arr (item :: items) =>
    '[' :: lineBreak (depth + 2) ++ indentedAt (depth + 2) item
      ++ indentedItems depth items
  | .obj [] => ['\x7b', '\x7d']
  | .obj ((key, value) :: fields) =>
    '\x7b' :: lineBreak (depth + 2) ++ stringText key ++ ':' :: ' '
      :: indentedAt (depth + 2) value ++ indentedFields depth fields

/-- The items after the first and the closing bracket. -/
def indentedItems (depth : Nat) : List Json → List Char
  | [] => lineBreak depth ++ [']']
  | item :: items =>
    ',' :: lineBreak (depth + 2) ++ indentedAt (depth + 2) item
      ++ indentedItems depth items

/-- The fields after the first and the closing brace. -/
def indentedFields (depth : Nat) : List (String × Json) → List Char
  | [] => lineBreak depth ++ ['\x7d']
  | (key, value) :: fields =>
    ',' :: lineBreak (depth + 2) ++ stringText key ++ ':' :: ' '
      :: indentedAt (depth + 2) value ++ indentedFields depth fields

end

/-- The indented text of a value, without a final line break. -/
def indented (j : Json) : String := String.ofList (indentedAt 0 j)

-- ======================================================== compact form

mutual

/-- A value on one line of ASCII. -/
def compactText : Json → List Char
  | .null => "null".toList
  | .bool true => "true".toList
  | .bool false => "false".toList
  | .int n => intText n
  | .float x => (floatStyle.text x).toList
  | .str s => asciiText s
  | .arr [] => ['[', ']']
  | .arr (item :: items) => '[' :: compactText item ++ compactItems items
  | .obj [] => ['\x7b', '\x7d']
  | .obj ((key, value) :: fields) =>
    '\x7b' :: asciiText key ++ ':' :: ' ' :: compactText value
      ++ compactFields fields

/-- The items after the first and the closing bracket. -/
def compactItems : List Json → List Char
  | [] => [']']
  | item :: items => ',' :: ' ' :: compactText item ++ compactItems items

/-- The fields after the first and the closing brace. -/
def compactFields : List (String × Json) → List Char
  | [] => ['\x7d']
  | (key, value) :: fields =>
    ',' :: ' ' :: asciiText key ++ ':' :: ' ' :: compactText value
      ++ compactFields fields

end

/-- The value on one line of ASCII. -/
def compact (j : Json) : String := String.ofList (compactText j)

end Json

end ApiScaffold
