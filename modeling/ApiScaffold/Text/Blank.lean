/-
Blank characters and trimming. Blanks are the white space of every
script plus the four information separators below the space; the
zero-width characters (U+200B, U+FEFF) are not blank.
-/

namespace ApiScaffold

/-- A white-space character. -/
def isBlank (c : Char) : Bool :=
  let n := c.toNat
  (9 ≤ n && n ≤ 13) || (28 ≤ n && n ≤ 32) || n == 0x85 || n == 0xA0
    || n == 0x1680 || (0x2000 ≤ n && n ≤ 0x200A) || n == 0x2028
    || n == 0x2029 || n == 0x202F || n == 0x205F || n == 0x3000

-- ============================================================ trimming

/-- The text without its leading blanks. -/
def trimStart (cs : List Char) : List Char := cs.dropWhile isBlank

/-- The text without its trailing blanks. -/
def trimEnd (cs : List Char) : List Char :=
  (cs.reverse.dropWhile isBlank).reverse

/-- The text without surrounding blanks. -/
def trim (cs : List Char) : List Char := trimEnd (trimStart cs)

/-- Trimming a string. -/
def trimText (s : String) : String := String.ofList (trim s.toList)

end ApiScaffold
