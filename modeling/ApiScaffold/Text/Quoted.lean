/-
Text quoted for a message. Single quotes enclose it, unless it holds a
single quote and no double quote; the enclosing quote and the backslash
are escaped, line feed, carriage return and tab have short escapes, and
what is not printable is written as its code point in hexadecimal.
-/
import ApiScaffold.Text.Hex
import ApiScaffold.Text.Printable

namespace ApiScaffold

/-- The quote that encloses a text. -/
def quoteFor (cs : List Char) : Char :=
  if cs.contains '\'' && !cs.contains '"' then '"' else '\''

/-- One character inside quoted text. -/
def quotedChar (quote c : Char) : List Char :=
  if c = quote ∨ c = '\\' then ['\\', c]
  else if c = '\n' then ['\\', 'n']
  else if c = '\r' then ['\\', 'r']
  else if c = '\t' then ['\\', 't']
  else if isPrintable c then [c]
  else if c.toNat ≤ 0xFF then '\\' :: 'x' :: hexDigits 2 c.toNat
  else if c.toNat ≤ 0xFFFF then '\\' :: 'u' :: hexDigits 4 c.toNat
  else '\\' :: 'U' :: hexDigits 8 c.toNat

/-- The text in quotes. -/
def quoted (cs : List Char) : List Char :=
  let quote := quoteFor cs
  quote :: cs.flatMap (quotedChar quote) ++ [quote]

/-- A string in quotes. -/
def quotedText (s : String) : String := String.ofList (quoted s.toList)

end ApiScaffold
