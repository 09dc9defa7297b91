/-
Values inside messages: on one line, texts quoted as in any message, and
the words for null, true and false capitalised.
-/
import ApiScaffold.Json.Printer
import ApiScaffold.Text.Quoted

namespace ApiScaffold

namespace Json

/-- Doubles in messages. -/
def inlineFloatStyle : FloatStyle := ⟨"inf", "nan", false⟩

mutual

/-- A value inside a message. -/
def inlineText : Json → List Char
  | .null => "None".toList
  | .bool true => "True".toList
  | .bool false => "False".toList
  | .int n => intText n
  | .float x => (inlineFloatStyle.text x).toList
  | .str s => quoted s.toList
  | .arr [] => ['[', ']']
  | .arr (item :: items) => '[' :: inlineText item ++ inlineItems items
  | .obj [] => ['\x7b', '\x7d']
  | .obj ((key, value) :: fields) =>
    '\x7b' :: quoted key.toList ++ ':' :: ' ' :: inlineText value
      ++ inlineFields fields

/-- The items after the first and the closing bracket. -/
def inlineItems : List Json → List Char
  | [] => [']']
  | item :: items => ',' :: ' ' :: inlineText item ++ inlineItems items

/-- The fields after the first and the closing brace. -/
def inlineFields : List (String × Json) → List Char
  | [] => ['\x7d']
  | (key, value) :: fields =>
    ',' :: ' ' :: quoted key.toList ++ ':' :: ' ' :: inlineText value
      ++ inlineFields fields

end

/-- The text of a value inside a message. -/
def inline (j : Json) : String := String.ofList (inlineText j)

end Json

end ApiScaffold
