/-
Attribute types: what a type written after a colon means. Primitive names
count in any letter case, then the names of components, then collections
of one name; anything else is text.
-/
import ApiScaffold.Diagram.Basic
import ApiScaffold.Schema.Fragment
import ApiScaffold.Text.Blank
import ApiScaffold.Text.Case
import ApiScaffold.Text.Word

namespace ApiScaffold

/-- The primitive type names in lower case and their schemas. -/
def primitiveTypes : List (String × Fragment) :=
  [("string", .plain "string" none),
   ("text", .plain "string" none),
   ("uuid", .plain "string" "uuid"),
   ("date", .plain "string" "date"),
   ("datetime", .plain "string" "date-time"),
   ("date-time", .plain "string" "date-time"),
   ("boolean", .plain "boolean" none),
   ("bool", .plain "boolean" none),
   ("int", .plain "integer" "int32"),
   ("integer", .plain "integer" none),
   ("long", .plain "integer" "int64"),
   ("float", .plain "number" "float"),
   ("double", .plain "number" "double"),
   ("number", .plain "number" none),
   ("decimal", .plain "number" "double"),
   ("email", .plain "string" "email")]

/-- The schema of a primitive type name in any letter case. -/
def primitive? (token : String) : Option Fragment :=
  primitiveTypes.lookup (lowerText token)

/-- The words that open a collection with its item type in angle
brackets. -/
def collectionWords : List String := ["List", "Set", "Collection", "Array"]

/-- The item type between angle brackets, if it is one identifier that
ends the text. -/
def bracketedWord? (s : List Char) : Option (List Char) :=
  match s with
  | '<' :: rest =>
    let word := rest.takeWhile isWord
    if !word.isEmpty && rest.dropWhile isWord == ['>'] then some word else none
  | _ => none

/-- The item type of a collection token: `List<T>` and its kin, or
`T[]`. -/
def itemType? (s : List Char) : Option (List Char) :=
  let word := s.takeWhile isWord
  let rest := s.dropWhile isWord
  if collectionWords.contains (String.ofList word) then
    match bracketedWord? rest with
    | some item => some item
    | none => if rest == ['[', ']'] then some word else none
  else if !word.isEmpty && rest == ['[', ']'] then some word
  else none

/-- The schema of a type that is no collection. -/
def resolveName (declaredNames : List String) (token : String) : Fragment :=
  match primitive? token with
  | some f => f
  | none =>
    if declaredNames.contains token then .component token else .text

/-- The schema of a type token; missing and empty ones are text. -/
def fragmentOfType (declaredNames : List String) (type : Option String) : Fragment :=
  match type with
  | none => .text
  | some raw =>
    if raw.isEmpty then .text else
      let token := trimText raw
      match primitive? token with
      | some f => f
      | none =>
        if declaredNames.contains token then .component token
        else match itemType? token.toList with
          | some item =>
            .array (resolveName declaredNames (String.ofList item)) none none
          | none => .text

end ApiScaffold
