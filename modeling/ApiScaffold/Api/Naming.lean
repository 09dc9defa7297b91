/-
Names derived from the names of declarations: the segment of a resource
in a path, and the name of a property that refers to a declaration.
-/
import ApiScaffold.Text.Blank
import ApiScaffold.Text.Case

namespace ApiScaffold

-- ============================================================== segments

/-- A hyphen between each lower-case letter or digit and the capital that
follows it; ASCII letters alone count. -/
def hyphenate : List Char → List Char
  | c :: d :: rest =>
    if (c.isLower || c.isDigit) && d.isUpper then c :: '-' :: hyphenate (d :: rest)
    else c :: hyphenate (d :: rest)
  | s => s

/-- Every run of blanks replaced by one hyphen. `inRun` tells whether the
text follows a blank. -/
def joinBlanks (inRun : Bool) : List Char → List Char
  | [] => []
  | c :: cs =>
    if isBlank c then
      if inRun then joinBlanks true cs else '-' :: joinBlanks true cs
    else c :: joinBlanks false cs

/-- A name in lower case with hyphens between its words. -/
def kebabCase (name : String) : String :=
  String.ofList (lower (joinBlanks false (hyphenate name.toList)))

/-- Whether the text ends in a sound that takes `es`; one line break at
its end is looked through. -/
def endsInSibilant (s : List Char) : Bool :=
  let ending := match s.reverse with
    | '\n' :: rest => rest
    | rest => rest
  match ending with
  | 'x' :: _ => true
  | 'z' :: _ => true
  | 'h' :: 'c' :: _ => true
  | 'h' :: 's' :: _ => true
  | _ => false

/-- A lower-case vowel. -/
def isVowel (c : Char) : Bool :=
  c = 'a' || c = 'e' || c = 'i' || c = 'o' || c = 'u'

/-- The plural of a word: unchanged after `s`, `es` after a sibilant,
`ies` for a `y` after a consonant, and `s` otherwise. -/
def plural (s : List Char) : List Char :=
  if s.getLast? == some 's' then s
  else if endsInSibilant s then s ++ ['e', 's']
  else match s.reverse with
    | 'y' :: c :: rest =>
      if isVowel c then s ++ ['s'] else (c :: rest).reverse ++ ['i', 'e', 's']
    | _ => s ++ ['s']

/-- The plural of a word. -/
def pluralText (word : String) : String := String.ofList (plural word.toList)

/-- The path segment of a resource. -/
def pathSegment (name : String) : String := pluralText (kebabCase name)

-- ============================================================ properties

/-- The name with its first character in lower case. -/
def propertyName (name : String) : String :=
  match name.toList with
  | [] => ""
  | c :: rest => String.ofList (lower [c] ++ rest)

end ApiScaffold
