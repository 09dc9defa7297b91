/-
Notices: what is worth telling about a run. Most are for the author of a
diagram who wonders where a line went, and are told at the debug level;
each names the part of the library that it comes from.
-/
import ApiScaffold.Diagram.Basic
import ApiScaffold.Text.Quoted

namespace ApiScaffold

/-- The levels of log records. -/
inductive LogLevel where
  | debug
  | info
  | warning
  | error
  | critical
deriving Inhabited, Repr, DecidableEq

namespace LogLevel

/-- The name of a level. -/
def name : LogLevel → String
  | debug => "DEBUG"
  | info => "INFO"
  | warning => "WARNING"
  | error => "ERROR"
  | critical => "CRITICAL"

/-- The rank of a level. -/
def rank : LogLevel → Nat
  | debug => 10
  | info => 20
  | warning => 30
  | error => 40
  | critical => 50

end LogLevel

/-- Something worth telling about a run. -/
inductive Notice where
  | blockReopened (offset : Nat)
  | blockSkipped (offset : Nat)
  | blockUnterminated (offset : Nat)
  | memberDropped (line : String)
  | relationDropped (line : String)
  | diagramParsed (classes interfaces enums relations : Nat)
  | relationSkipped (kind : RelationKind) (source target : String)
  | inheritanceSkipped (parent child : String)
  | documentAssembled (paths schemas : Nat)
  | diagramTransformed (paths schemas : Nat)
  | validationFailed (errors : Nat)
deriving Inhabited, Repr, DecidableEq

namespace Notice

/-- The level at which a notice is told. -/
def level : Notice → LogLevel
  | diagramTransformed .. => .info
  | validationFailed .. => .info
  | _ => .debug

/-- The part of the program that a notice comes from. -/
def origin : Notice → String
  | blockReopened .. | blockSkipped .. | blockUnterminated .. => "structural_parser"
  | memberDropped .. => "member_parser"
  | relationDropped .. => "relation_scanner"
  | diagramParsed .. => "plantuml_parser"
  | relationSkipped .. | inheritanceSkipped .. => "schema_builder"
  | documentAssembled .. => "document_assembler"
  | diagramTransformed .. => "transform_runner"
  | validationFailed .. => "openapi_validator"

/-- The name of the logger of a notice. -/
def logger (n : Notice) : String := "src.uml_openapi.services." ++ n.origin

/-- The wording of a notice. -/
def message : Notice → String
  | blockReopened offset =>
    "Block header found inside unrecognised block at offset " ++ toString offset
  | blockSkipped offset =>
    "Skipping unrecognised brace block at offset " ++ toString offset
  | blockUnterminated offset =>
    "Dropping unterminated block starting at offset " ++ toString offset
  | memberDropped line => "Dropping unrecognised member line: " ++ quotedText line
  | relationDropped line =>
    "Dropping relation without endpoint names: " ++ quotedText line
  | diagramParsed classes interfaces enums relations =>
    "Parsed diagram: classes=" ++ toString classes ++ " interfaces="
      ++ toString interfaces ++ " enums=" ++ toString enums ++ " relations="
      ++ toString relations
  | relationSkipped kind source target =>
    "Skipping " ++ kind.name ++ " relation with unknown endpoint: " ++ source
      ++ " -> " ++ target
  | inheritanceSkipped parent child =>
    "Skipping inheritance with unknown endpoint: " ++ parent ++ " <- " ++ child
  | documentAssembled paths schemas =>
    "Assembled document: paths=" ++ toString paths ++ " schemas=" ++ toString schemas
  | diagramTransformed paths schemas =>
    "Transformed diagram: paths=" ++ toString paths ++ " schemas=" ++ toString schemas
  | validationFailed errors =>
    "Generated document failed validation: " ++ toString errors ++ " error(s)"

end Notice

end ApiScaffold
