/-
Sample diagrams. A sample is a file whose name ends in `.plant`; its
identifier is the name without the ending, and its label is made from the
parts of the name between hyphens, the first in capitals.
-/
import ApiScaffold.Json.Basic
import ApiScaffold.Files.Tree
import ApiScaffold.Text.Case

namespace ApiScaffold

/-- The ending of the names of samples. -/
def sampleEnding : String := ".plant"

/-- A name without the ending of samples, if it has it. -/
def withoutEnding? (fileName : String) : Option String :=
  let ending := sampleEnding.toList.reverse
  let reversed := fileName.toList.reverse
  if ending.isPrefixOf reversed then
    some (String.ofList (reversed.drop ending.length).reverse)
  else none

/-- A text with its first character in upper case. -/
def capitalized : List Char → List Char
  | [] => []
  | c :: cs => upper [c] ++ cs

/-- The label of a file name. -/
def sampleLabel (fileName : String) : String :=
  let stem := (withoutEnding? fileName).getD fileName
  match pieces '-' stem.toList with
  | [] => ""
  | first :: rest =>
    let words := (rest.filter fun w => !w.isEmpty).map fun w => String.ofList (capitalized w)
    String.ofList (upper first)
      ++ if words.isEmpty then "" else " " ++ " ".intercalate words

/-- A sample diagram. -/
structure Sample where
  id : String
  fileName : String
  label : String
  content : String
deriving Inhabited, Repr, DecidableEq

namespace Sample

/-- The JSON form of a sample, with its file name under the given key. -/
def toJsonAs (fileNameKey : String) (s : Sample) : Json :=
  .obj [("id", .str s.id), (fileNameKey, .str s.fileName), ("label", .str s.label),
    ("content", .str s.content)]

/-- The JSON form of a sample. -/
def toJson (s : Sample) : Json := s.toJsonAs "fileName"

/-- The sample in a file, unless the file is no text. -/
def ofFile? (id fileName : String) (content : ByteArray) : Option Sample :=
  (decodeText? content).map fun text =>
    { id, fileName, label := sampleLabel fileName, content := text }

end Sample

end ApiScaffold
