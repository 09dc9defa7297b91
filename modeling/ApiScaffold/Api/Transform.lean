/-
The whole way from a diagram text to an answer: the document, its text in
some format and the verdict on it, as far as they are asked for. Texts
beyond the size limit are refused beforehand.
-/
import ApiScaffold.Api.Rendering
import ApiScaffold.Api.Validation
import ApiScaffold.Log.Trace
import ApiScaffold.Settings

namespace ApiScaffold

-- ================================================================= size

/-- The size of a text in bytes. -/
def diagramSize (text : String) : Nat := text.utf8ByteSize

/-- Refuse a text that is larger than the settings allow. -/
def Settings.allow (s : Settings) (text : String) : Outcome Unit :=
  if s.maxDiagramBytes < diagramSize text then
    .error (.rejected ("Diagram is " ++ toString (diagramSize text)
      ++ " bytes; the limit is " ++ toString s.maxDiagramBytes ++ " bytes"))
  else .ok ()

-- =============================================================== answer

/-- What a transformation answers. -/
structure Transformed where
  document : Document
  rendered : Option String := none
  verdict : Option Verdict := none
deriving Inhabited

namespace Transformed

/-- The JSON form of an answer. -/
def toJson (t : Transformed) : Json :=
  .obj [("document", t.document.toJson), ("rendered", Json.orNull .str t.rendered),
    ("validation", Json.orNull Verdict.toJson t.verdict)]

end Transformed

/-- Render and judge a document as far as it is asked for; an empty name
of a format asks for nothing. -/
def Document.answer (d : Document) (format : Option String) (validate : Bool) :
    Outcome Transformed := do
  let rendered ← match format with
    | some name => if name.isEmpty then pure none else (d.toJson.renderAs name).map some
    | none => pure none
  let verdict ← if validate then d.toJson.verdict.map some else pure none
  return { document := d, rendered, verdict }

/-- Transform a diagram text. -/
def transform (info : Info) (text : String) (format : Option String)
    (validate : Bool) : Outcome Transformed := do
  let d ← NumeralTooLong.outcome (Document.ofText info text)
  d.answer format validate

-- =============================================================== notices

/-- The notice that a document was made. -/
def Document.madeNotice (d : Document) : Notice :=
  .diagramTransformed d.paths.entries.length d.components.entries.length

/-- The notice about a verdict that finds errors. -/
def Verdict.notices (v : Verdict) : List Notice :=
  if v.valid then [] else [.validationFailed v.errors.length]

/-- The notices of a transformation, as far as it gets. -/
def transformNotices (info : Info) (text : String) (format : Option String)
    (validate : Bool) : List Notice :=
  let result := Diagram.parse text
  Diagram.readingNotices text result ++ match result with
    | .error _ => []
    | .ok diagram =>
      let document := Document.ofDiagram info diagram
      Document.buildingNotices diagram document ++ [document.madeNotice]
        ++ match document.answer format validate with
          | .ok answer => (answer.verdict.map Verdict.notices).getD []
          | .error _ => []

end ApiScaffold
