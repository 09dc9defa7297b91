/-
Plain scalars that do not read back as text. Written without quotes,
these words and numerals denote booleans, null, numbers, times or merge
keys (YAML 1.1), so text that looks like one must be quoted.
-/
import ApiScaffold.Text.Pattern

namespace ApiScaffold.Yaml

open Pattern

/-- A word in lower case, with a capital at its start, and in capitals. -/
def threeCases (s : String) : Pattern :=
  anyOf [word s, word s.capitalize, word (s.map Char.toUpper)]

/-- The spellings of booleans. -/
def booleans : Pattern :=
  anyOf (["yes", "no", "true", "false", "on", "off"].map threeCases)

/-- The spellings of null. -/
def nulls : Pattern := anyOf [done, word "~", threeCases "null"]

/-- An optional sign. -/
def sign : Pattern := optional (among "+-")

/-- A digit or an underscore. -/
def digitOrScore : Pattern := alt digit (char '_')

/-- The groups of a numeral to the base sixty. -/
def sixties : Pattern :=
  Pattern.some (sequence [char ':', optional (among "012345"), digit])

/-- Integers: binary, octal, decimal, hexadecimal and to the base
sixty. -/
def integers : Pattern :=
  sign.andThen (anyOf
    [(word "0b").andThen (Pattern.some (among "01_")),
     (char '0').andThen (Pattern.some (among "01234567_")),
     char '0',
     (among "123456789").andThen (many digitOrScore),
     (word "0x").andThen (Pattern.some (among "0123456789abcdefABCDEF_")),
     sequence [among "123456789", many digitOrScore, sixties]])

/-- An exponent with its sign. -/
def exponent : Pattern :=
  optional (sequence [among "eE", among "+-", Pattern.some digit])

/-- Numbers with a point, and the words for infinities and for what is
not a number. -/
def floats : Pattern :=
  anyOf
    [sequence [sign, digit, many digitOrScore, char '.', many digitOrScore, exponent],
     sequence [char '.', digit, many digitOrScore, exponent],
     sequence [sign, digit, many digitOrScore, sixties, char '.', many digitOrScore],
     sequence [sign, char '.', anyOf [word "inf", word "Inf", word "INF"]],
     (char '.').andThen (anyOf [word "nan", word "NaN", word "NAN"])]

/-- One or two digits. -/
def oneOrTwo : Pattern := digit.andThen (optional digit)

/-- Two digits. -/
def two : Pattern := digit.andThen digit

/-- Four digits. -/
def four : Pattern := two.andThen two

/-- A blank or a tab. -/
def gap : Pattern := among " \t"

/-- Dates, and times of a day with an optional zone. -/
def times : Pattern :=
  anyOf
    [sequence [four, char '-', two, char '-', two],
     sequence
      [four, char '-', oneOrTwo, char '-', oneOrTwo,
       alt (among "Tt") (Pattern.some gap),
       oneOrTwo, char ':', two, char ':', two,
       optional ((char '.').andThen (many digit)),
       optional ((many gap).andThen (alt (char 'Z') (sequence
        [among "+-", oneOrTwo, optional ((char ':').andThen two)])))]]

/-- All plain scalars that are not text. -/
def implicits : Pattern :=
  anyOf [booleans, nulls, integers, floats, times, word "=", word "<<"]

/-- Whether text written plain would read back as something else. -/
def isImplicit (s : List Char) : Bool := implicits.accepts s

end ApiScaffold.Yaml
