/-
The looks of text on a terminal, as tags of marked-up text describe them.
A description lists properties, colours and a background in any order,
and some properties have short names; descriptions of one look have one
normal form.
-/
import ApiScaffold.Text.Blank
import ApiScaffold.Text.Case
import ApiScaffold.Text.Hex

namespace ApiScaffold

/-- A look: which properties it sets or takes away, and its colours. -/
structure Look where
  properties : List (String × Bool) := []
  colour : Option String := none
  background : Option String := none
  link : Option String := none
deriving Inhabited, Repr, DecidableEq

namespace Look

/-- The properties, in the order of the normal form. -/
def propertyNames : List String :=
  ["bold", "dim", "italic", "underline", "blink", "blink2", "reverse", "conceal",
   "strike", "underline2", "frame", "encircle", "overline"]

/-- The short names of properties. -/
def shortNames : List (String × String) :=
  [("b", "bold"), ("d", "dim"), ("i", "italic"), ("u", "underline"), ("r", "reverse"),
   ("c", "conceal"), ("s", "strike"), ("uu", "underline2"), ("o", "overline")]

/-- The property of a name. -/
def property? (name : String) : Option String :=
  if propertyNames.contains name then some name else shortNames.lookup name

/-- The colours that every terminal has. -/
def basicColours : List String :=
  let names := ["black", "red", "green", "yellow", "blue", "magenta", "cyan", "white"]
  "default" :: names ++ names.map ("bright_" ++ ·)

/-- The colour of a word, in lower case: a name, or a hash and six
hexadecimal digits. -/
def colour? (word : String) : Option String :=
  let word := lowerText word
  let isHex := match word.toList with
    | '#' :: digits => digits.length = 6 && digits.all fun c => (hexValue? c).isSome
    | _ => false
  if isHex || basicColours.contains word then some word else none

/-- Set a property or take it away. -/
def withProperty (look : Look) (name : String) (value : Bool) : Look :=
  { look with properties := (name, value) :: look.properties }

/-- Read the words of a description. -/
def ofWords? (look : Look) : List String → Option Look
  | [] => some look
  | word :: rest =>
    match lowerText word, rest with
    | "on", [] | "not", [] | "link", [] => none
    | "on", next :: rest => (colour? next).bind fun c =>
      ofWords? { look with background := some c } rest
    | "not", next :: rest => (property? next).bind fun name =>
      ofWords? (look.withProperty name false) rest
    | "link", next :: rest => ofWords? { look with link := some next } rest
    | name, rest => match property? name with
      | some name => ofWords? (look.withProperty name true) rest
      | none => (colour? name).bind fun c => ofWords? { look with colour := some c } rest

/-- The words between blanks. -/
def wordsOf (description : String) : List String :=
  ((description.toList.splitOnP isBlank).filter fun word => !word.isEmpty).map
    String.ofList

/-- The description of a look in normal form. -/
def description (look : Look) : String :=
  let properties := propertyNames.filterMap fun name =>
    (look.properties.lookup name).map fun value => if value then name else "not " ++ name
  let words := properties ++ look.colour.toList
    ++ (look.background.map ("on " ++ ·)).toList ++ (look.link.map ("link " ++ ·)).toList
  if words.isEmpty then "none" else " ".intercalate words

/-- The normal form of a description; one that describes no look stands
for itself, without regard to case. -/
def normalForm (text : String) : String :=
  let words := wordsOf text
  if words.isEmpty || words = ["none"] then "none"
  else match ofWords? {} words with
    | some look => look.description
    | none => lowerText (trimText text)

end Look

end ApiScaffold
