/-
Documents: the description of an API that a diagram becomes, with its
`info` block, the paths of its classes and its component schemas.
-/
import ApiScaffold.Api.Path
import ApiScaffold.Diagram.Parser
import ApiScaffold.Schema.Builder

namespace ApiScaffold

/-- The version of the document format. -/
def documentVersion : String := "3.1.0"

/-- The `info` block of a document. -/
structure Info where
  title : String := "PlantUML Generated API"
  version : String := "1.0.0"
  description : String := "OpenAPI schema generated from PlantUML diagram."
deriving Inhabited, Repr, DecidableEq

/-- The JSON form of an `info` block. -/
def Info.toJson (i : Info) : Json :=
  .obj [("title", .str i.title), ("version", .str i.version),
    ("description", .str i.description)]

/-- An API document. -/
structure Document where
  info : Info
  paths : OrderedMap PathItem
  components : OrderedMap Component
deriving Inhabited

namespace Document

/-- The JSON form of the paths. -/
def pathsJson (paths : OrderedMap PathItem) : Json :=
  .obj (paths.mapValues PathItem.toJson).entries

/-- The JSON form of a document. -/
def toJson (d : Document) : Json :=
  .obj [("openapi", .str documentVersion), ("info", d.info.toJson),
    ("paths", pathsJson d.paths),
    ("components", .obj [("schemas", componentsJson d.components)])]

/-- The document of a diagram. -/
def ofDiagram (info : Info) (d : Diagram) : Document :=
  let (paths, components) :=
    resourcePaths (.object errorSchema) (d.classes.map Entity.name) d.componentSchemas
  { info, paths, components }

/-- The document of a diagram text. -/
def ofText (info : Info) (text : String) : Except NumeralTooLong Document :=
  (Diagram.parse text).map (ofDiagram info)

end Document

end ApiScaffold
