/-
Readers of single values. Texts must be texts; integers, numbers and
booleans are also read from other values that denote them without loss,
such as decimal text.
-/
import ApiScaffold.Record.Basic
import ApiScaffold.Record.Numeral

namespace ApiScaffold

-- ============================================================ structure

/-- Any value. -/
def readAny : Reader Json := .ok

/-- A text. -/
def readText : Reader String
  | .str s => .ok s
  | _ => .fail .notText

/-- A value that may be null. -/
def readNullable {α : Type} (reader : Reader α) : Reader (Option α)
  | .null => .ok none
  | j => (reader j).map some

/-- A list. -/
def readList {α : Type} (reader : Reader α) : Reader (List α)
  | .arr items => Checked.items reader 0 items
  | _ => .fail .notList

/-- An object with arbitrary fields. -/
def readObject : Reader (OrderedMap Json)
  | .obj fields => .ok (.ofList fields)
  | _ => .fail .notObject

/-- One of several values, given by name. -/
def readNamed {α : Type} (name : α → String) (all : List α) : Reader α
  | .str s => match all.find? fun a => name a == s with
    | some a => .ok a
    | none => .fail (.notAmong (all.map name))
  | _ => .fail (.notAmong (all.map name))

/-- One of several texts. -/
def readLiteral (choices : List String) : Reader String
  | .str s => if choices.contains s then .ok s else .fail (.notLiteral choices)
  | _ => .fail (.notLiteral choices)

/-- One of several texts, stated as a pattern of alternatives. -/
def readAlternative (choices : List String) : Reader String
  | .str s =>
    if choices.contains s then .ok s
    else .fail (.noMatch ("^(" ++ "|".intercalate choices ++ ")$"))
  | _ => .fail .notText

-- ============================================================== integers

/-- The bound of a machine word with a sign. -/
def wordBound : Int := Nat.pow 2 63

/-- Whether an integer fits into a machine word with a sign. -/
def fitsWord (n : Int) : Bool := -wordBound ≤ n && n < wordBound

/-- The integer that a double equals. Only values strictly between the
bounds of a machine word are taken. -/
def integerOfNumber (x : Binary64) : Except Fault Int :=
  match x, x.toInt? with
  | _, some n =>
    if -wordBound < n && n < wordBound then .ok n else .error .integerTooLong
  | .finite .., none => .error .fractional
  | _, none => .error .notFinite

/-- An integer. -/
def readInteger : Reader Int
  | .int n => .ok n
  | .bool b => .ok (if b then 1 else 0)
  | .float x => match integerOfNumber x with
    | .ok n => .ok n
    | .error fault => .fail fault
  | .str s => match integerOfText s.toList with
    | .ok n => .ok n
    | .error .notNumeral => .fail .integerText
    | .error .tooLong => .fail .integerTooLong
  | _ => .fail .notInteger

/-- An integer that is at least `least`. -/
def readAtLeast (least : Int) : Reader Int := fun j =>
  match readInteger j with
  | .ok n => if n < least then .fail (.tooSmall least) else .ok n
  | .error ps => .error ps

-- =============================================================== numbers

/-- A number. Integers beyond the range of doubles are none. -/
def readNumber : Reader Binary64
  | .float x => .ok x
  | .int n => match Binary64.ofInt n with
    | .infinite _ => .fail .notNumber
    | x => .ok x
  | .bool b => .ok (Binary64.ofInt (if b then 1 else 0))
  | .str s => match numberOfText s.toList with
    | some x => .ok x
    | none => .fail .numberText
  | _ => .fail .notNumber

-- ============================================================== booleans

/-- The words for true, in lower case. -/
def trueWords : List String := ["1", "on", "t", "true", "y", "yes"]

/-- The words for false, in lower case. -/
def falseWords : List String := ["0", "off", "f", "false", "n", "no"]

/-- The boolean that an integer denotes. An integer that does not fit into
a machine word is of no kind that could denote one. -/
def booleanOfInt (n : Int) : Checked Bool :=
  if n = 0 then .ok false else if n = 1 then .ok true
  else if fitsWord n then .fail .booleanText
  else .fail .notBoolean

/-- A boolean. -/
def readBoolean : Reader Bool
  | .bool b => .ok b
  | .int n => booleanOfInt n
  | .float x => match integerOfNumber x with
    | .ok n => booleanOfInt n
    | .error _ => .fail .notBoolean
  | .str s =>
    let word := String.ofList (s.toList.map Char.toLower)
    if trueWords.contains word then .ok true
    else if falseWords.contains word then .ok false
    else .fail .booleanText
  | _ => .fail .notBoolean

end ApiScaffold
