/-
Output formats. A format is asked for by name, in any letter case and
with blanks around it.
-/
import ApiScaffold.Failure
import ApiScaffold.Json.Printer
import ApiScaffold.Text.Case
import ApiScaffold.Yaml.Printer

namespace ApiScaffold

/-- The formats in which documents are written. -/
inductive OutputFormat where
  | json
  | yaml
deriving Inhabited, Repr, DecidableEq

namespace OutputFormat

/-- The names that are offered. -/
def names : List String := ["json", "yaml"]

/-- The format of a name in lower case without blanks around it. -/
def ofWord? (word : String) : Option OutputFormat :=
  if word == "json" then some .json
  else if word == "yaml" || word == "yml" then some .yaml
  else none

/-- The format of a name. -/
def ofName (name : String) : Outcome OutputFormat :=
  match ofWord? (lowerText (trimText name)) with
  | some format => .ok format
  | none => .error (.rejected ("Unsupported output format: " ++ quotedText name
      ++ " (expected one of " ++ ", ".intercalate names ++ ")"))

/-- The text of a value in a format. -/
def render : OutputFormat → Json → String
  | json, j => j.indented
  | yaml, j => Yaml.text j

end OutputFormat

/-- The text of a value in the format of a name. -/
def Json.renderAs (j : Json) (name : String) : Outcome String :=
  (OutputFormat.ofName name).map fun format => format.render j

end ApiScaffold
