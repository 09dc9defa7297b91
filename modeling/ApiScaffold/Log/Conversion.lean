/-
Conversions in messages. A percent sign asks for an argument to be put in
its place: perhaps by a name in parentheses, with flags, a least width, a
precision and a letter that says how the argument is written. Width and
precision may be arguments themselves. Two percent signs stand for one.
-/
import ApiScaffold.Text.Hex

namespace ApiScaffold

-- =========================================================== conversions

/-- A width or a precision. -/
inductive Amount where
  | given (n : Nat)
  /-- The next argument. -/
  | argument
deriving Inhabited, Repr, DecidableEq

/-- The name by which a conversion asks for an argument. -/
inductive ArgumentName where
  | closed (name : List Char)
  /-- The parenthesis after the name is missing. -/
  | unclosed
deriving Inhabited, Repr, DecidableEq

/-- What a percent sign asks for. -/
structure Conversion where
  name : Option ArgumentName := none
  flags : List Char := []
  width : Option Amount := none
  precision : Option Amount := none
  /-- The letter and its place in the message, unless the message ends
  before it. -/
  letter : Option (Char × Nat) := none
deriving Inhabited, Repr, DecidableEq

/-- Whether a conversion has a flag. -/
def Conversion.has (c : Conversion) (flag : Char) : Bool := c.flags.contains flag

/-- A part of a message. -/
inductive MessagePart where
  | plain (c : Char)
  | conversion (c : Conversion)
deriving Inhabited, Repr, DecidableEq

-- =============================================================== reading

/-- The number of characters up to the parenthesis that closes the one
before the text, and with it. `depth` counts the open ones inside. -/
def closingPlace? (depth : Nat) : List Char → Option Nat
  | [] => none
  | c :: cs =>
    if c = ')' then
      match depth with
      | 0 => some 1
      | outer + 1 => (closingPlace? outer cs).map (· + 1)
    else (closingPlace? (if c = '(' then depth + 1 else depth) cs).map (· + 1)

/-- The name at the start of a conversion, and the rest. -/
def readName : List Char → Option ArgumentName × List Char
  | '(' :: cs => match closingPlace? 0 cs with
    | some n => (some (.closed (cs.take (n - 1))), cs.drop n)
    | none => (some .unclosed, [])
  | cs => (none, cs)

/-- A character that changes how an argument is written. -/
def isFlag (c : Char) : Bool := c = '-' || c = '+' || c = ' ' || c = '#' || c = '0'

/-- An amount, if one stands at the start, and the rest. -/
def readAmount : List Char → Option Amount × List Char
  | '*' :: cs => (some .argument, cs)
  | cs =>
    let ds := cs.takeWhile Char.isDigit
    (if ds.isEmpty then none else some (.given (ofDecimal ds)), cs.dropWhile Char.isDigit)

/-- A precision, if a point stands at the start, and the rest; a point
alone means zero. -/
def readPrecision : List Char → Option Amount × List Char
  | '.' :: cs =>
    let (amount, rest) := readAmount cs
    (some (amount.getD (.given 0)), rest)
  | cs => (none, cs)

/-- The text without a letter for the size of an argument. -/
def dropSize : List Char → List Char
  | c :: cs => if c = 'h' || c = 'l' || c = 'L' then cs else c :: cs
  | [] => []

/-- The conversion after a percent sign, and the rest of the message,
which starts at `position`. -/
def readConversion (position : Nat) (cs : List Char) : Conversion × List Char :=
  let (name, rest) := readName cs
  let flags := rest.takeWhile isFlag
  let (width, rest) := readAmount (rest.dropWhile isFlag)
  let (precision, rest) := readPrecision rest
  match dropSize rest with
  | [] => ({ name, flags, width, precision }, [])
  | c :: rest =>
    let letter := some (c, position + (cs.length - rest.length) - 1)
    ({ name, flags, width, precision, letter }, rest)

/-- The parts of a message from `position` on. The first `skip` characters
belong to a conversion that is already read. -/
def messageParts (skip position : Nat) : List Char → List MessagePart
  | [] => []
  | c :: cs => match skip with
    | skip + 1 => messageParts skip (position + 1) cs
    | 0 =>
      if c ≠ '%' then .plain c :: messageParts 0 (position + 1) cs
      else if cs.head? = some '%' then .plain '%' :: messageParts 1 (position + 1) cs
      else
        let (conversion, rest) := readConversion (position + 1) cs
        .conversion conversion
          :: messageParts (cs.length - rest.length) (position + 1) cs

end ApiScaffold
