/-
Messages with arguments. The parts of a message are gone through in
order; each conversion takes its width and precision, if they are
arguments, then the argument that it writes. A single object in the place
of the arguments supplies them by name.
-/
import ApiScaffold.Failure
import ApiScaffold.Json.Inline
import ApiScaffold.Log.Conversion
import ApiScaffold.Number.Places

namespace ApiScaffold

-- ============================================================= arguments

/-- The arguments that are left. -/
inductive Supply where
  | ordered (rest : List Json)
  /-- Fields by name, and the argument that a conversion without a name
  would take. -/
  | named (fields : List (String × Json)) (single : Option Json)
deriving Inhabited

namespace Supply

/-- The arguments of a message. -/
def ofArguments : List Json → Supply
  | [.obj (field :: fields)] => .named (field :: fields) (some (.obj (field :: fields)))
  | arguments => .ordered arguments

/-- The next argument. -/
def next : Supply → Outcome (Json × Supply)
  | .ordered (j :: rest) => .ok (j, .ordered rest)
  | .named fields (some j) => .ok (j, .named fields none)
  | _ => .error (.message .tooFewArguments)

/-- Make the argument of a name the next one. -/
def select (s : Supply) : ArgumentName → Outcome Supply
  | name => match s, name with
    | .ordered _, _ => .error (.message .noNames)
    | .named .., .unclosed => .error (.message .unclosedName)
    | .named fields _, .closed name => match fields.lookup (String.ofList name) with
      | some j => .ok (.named fields (some j))
      | none => .error (.message .unknownName)

/-- Whether arguments are left that a message should have taken. -/
def isLeftOver : Supply → Bool
  | .ordered rest => !rest.isEmpty
  | .named .. => false

end Supply

/-- The bound that a width stays below. -/
def widthBound : Nat := Nat.pow 2 63

/-- The bound below which a width leaves room for the message. -/
def roomBound : Nat := Nat.pow 2 36

/-- The bound that a precision stays below. -/
def precisionBound : Nat := Nat.pow 2 31

/-- An amount below a bound; `excess` is the fault of one that is written
out and reaches it. -/
def amountOf (bound : Nat) (excess : MessageFault) (s : Supply) :
    Amount → Outcome (Int × Supply)
  | .given n => if n < bound then .ok (n, s) else .error (.message excess)
  | .argument => do
    let (j, s) ← s.next
    let n ← match j with
      | .int n => pure n
      | .bool b => pure (if b then 1 else 0)
      | _ => throw (.message .amountNotInteger)
    if -(bound : Int) ≤ n && n < bound then return (n, s)
    else throw (.message .outOfRange)

-- =============================================================== writing

/-- A written argument in three parts, so that zeros may be put between
the second and the third. -/
structure Written where
  sign : List Char := []
  base : List Char := []
  body : List Char
  /-- Whether zeros may pad it. -/
  numeric : Bool := true

/-- A written argument with a least width. -/
def Written.padded (w : Written) (c : Conversion) (width : Int) : List Char :=
  let start := w.sign ++ w.base
  let blanks := width.natAbs - (start.length + w.body.length)
  if c.has '-' || width < 0 then start ++ w.body ++ List.replicate blanks ' '
  else if w.numeric && c.has '0' then start ++ List.replicate blanks '0' ++ w.body
  else List.replicate blanks ' ' ++ start ++ w.body

/-- The sign of a number. -/
def signText (c : Conversion) (negative : Bool) : List Char :=
  if negative then ['-'] else if c.has '+' then ['+'] else if c.has ' ' then [' '] else []

/-- The text of an argument. -/
def Json.plainText : Json → List Char
  | .str s => s.toList
  | j => j.inlineText

/-- A character that is not ASCII as an escape. -/
def escapedChar (c : Char) : List Char :=
  let n := c.toNat
  if n < 128 then [c]
  else if n ≤ 0xFF then '\\' :: 'x' :: hexDigits 2 n
  else if n ≤ 0xFFFF then '\\' :: 'u' :: hexDigits 4 n
  else '\\' :: 'U' :: hexDigits 8 n

/-- Text, cut off at the precision. -/
def writeText (precision : Option Nat) (text : List Char) : Written :=
  { body := match precision with
      | some n => text.take n
      | none => text
    numeric := false }

-- -------------------------------------------------------------- integers

/-- An argument as an integer; fractions are cut off. -/
def Json.truncated : Json → Outcome Int
  | .int n => .ok n
  | .bool b => .ok (if b then 1 else 0)
  | .float (.finite negative mantissa exponent) =>
    let size := mantissa * Nat.pow 2 exponent.toNat / Nat.pow 2 (-exponent).toNat
    .ok (if negative then -(size : Int) else size)
  | .float (.infinite _) => .error (.message .outOfRange)
  | .float .nan => .error (.message .notANumber)
  | _ => .error (.message .wrongArgument)

/-- An argument that is an integer. -/
def Json.exactInteger : Json → Outcome Int
  | .int n => .ok n
  | .bool b => .ok (if b then 1 else 0)
  | _ => .error (.message .wrongArgument)

/-- An integer in a base, with at least as many digits as the precision
says. -/
def writeInteger (c : Conversion) (precision : Option Nat) (mark : List Char)
    (base : Nat) (n : Int) : Written where
  sign := signText c (n < 0)
  base := if c.has '#' then mark else []
  body := padZeros (precision.getD 0) (Nat.toDigits base n.natAbs)

/-- Upper-case letters in the place of lower-case ones. -/
def Written.upper (w : Written) : Written :=
  { w with base := w.base.map Char.toUpper, body := w.body.map Char.toUpper }

-- --------------------------------------------------------------- doubles

/-- An argument as a double. -/
def Json.double : Json → Outcome Binary64
  | .float x => .ok x
  | .bool b => .ok (Binary64.ofInt (if b then 1 else 0))
  | .int n => match Binary64.ofInt n with
    | .infinite _ => .error (.message .outOfRange)
    | x => .ok x
  | _ => .error (.message .wrongArgument)

/-- A double, by the rule for finite values. -/
def writeDouble (c : Conversion) (rule : Nat → Int → List Char) : Binary64 → Written
  | .nan => { sign := signText c false, body := "nan".toList }
  | .infinite negative => { sign := signText c negative, body := "inf".toList }
  | .finite negative m q => { sign := signText c negative, body := rule m q }

-- ------------------------------------------------------------ characters

/-- A single character, given as such or by its code point. -/
def writeCharacter : Json → Outcome Written
  | .str s => match s.toList with
    | [c] => .ok { body := [c], numeric := false }
    | _ => .error (.message .wrongArgument)
  | j => do
    let n ← j.exactInteger
    if 0 ≤ n && n < 0x110000 then
      return { body := [Char.ofNat n.toNat], numeric := false }
    else throw (.message .outOfRange)

-- ---------------------------------------------------------------- letters

/-- An argument as the letter of a conversion says. -/
def writeArgument (c : Conversion) (precision : Option Nat) (letter : Char)
    (position : Nat) (j : Json) : Outcome Written :=
  let places := precision.getD 6
  let keep := c.has '#'
  match letter with
  | 's' => .ok (writeText precision j.plainText)
  | 'r' => .ok (writeText precision j.inlineText)
  | 'a' => .ok (writeText precision (j.inlineText.flatMap escapedChar))
  | 'd' | 'i' | 'u' => j.truncated.map (writeInteger c precision [] 10)
  | 'o' => j.exactInteger.map (writeInteger c precision ['0', 'o'] 8)
  | 'x' => j.exactInteger.map (writeInteger c precision ['0', 'x'] 16)
  | 'X' => j.exactInteger.map fun n => (writeInteger c precision ['0', 'x'] 16 n).upper
  | 'f' => j.double.map (writeDouble c (Places.fixed places keep))
  | 'F' => j.double.map fun x => (writeDouble c (Places.fixed places keep) x).upper
  | 'e' => j.double.map (writeDouble c (Places.scientific places keep))
  | 'E' => j.double.map fun x => (writeDouble c (Places.scientific places keep) x).upper
  | 'g' => j.double.map (writeDouble c (Places.general places keep))
  | 'G' => j.double.map fun x => (writeDouble c (Places.general places keep) x).upper
  | 'c' => writeCharacter j
  | _ => .error (.message (.unknownLetter letter position))

-- =============================================================== messages

/-- Write the argument of a conversion. -/
def Conversion.write (c : Conversion) (s : Supply) : Outcome (List Char × Supply) := do
  let s ← match c.name with
    | some name => s.select name
    | none => pure s
  let (width, s) ← match c.width with
    | some amount => amountOf widthBound .widthTooBig s amount
    | none => pure (0, s)
  let (precision, s) ← match c.precision with
    | some amount => do
      let (n, s) ← amountOf precisionBound .precisionTooBig s amount
      pure (some n.toNat, s)
    | none => pure (none, s)
  match c.letter with
  | none => throw (.message .incomplete)
  | some (letter, position) =>
    let (j, s) ← s.next
    let w ← writeArgument c precision letter position j
    if width.natAbs < roomBound then return (w.padded c width, s)
    else throw (.message .noRoom)

/-- Put arguments into the parts of a message; all must be taken. -/
def fillParts (s : Supply) : List MessagePart → Outcome (List Char)
  | [] => if s.isLeftOver then .error (.message .tooManyArguments) else .ok []
  | .plain c :: rest => (fillParts s rest).map (c :: ·)
  | .conversion c :: rest => (c.write s).bind fun (text, s) =>
    (fillParts s rest).map (text ++ ·)

/-- A message with its arguments put in. Without arguments, percent signs
are plain. -/
def fillMessage (message : String) (arguments : List Json) : Outcome String :=
  if arguments.isEmpty then .ok message
  else (fillParts (.ofArguments arguments) (messageParts 0 0 message.toList)).map
    String.ofList

end ApiScaffold
