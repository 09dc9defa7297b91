/-
The forms of all records of the program.
-/
import ApiScaffold.Api.Validation
import ApiScaffold.Diagram.Export
import ApiScaffold.Record.Form
import ApiScaffold.Service.Request

namespace ApiScaffold

-- ============================================================ documents

/-- Read an `info` block. -/
def Info.read : Reader Info := fun j =>
  (recordFields "InfoBlock" j).bind fun fs =>
  let defaults : Info := {}
  ((fieldOr fs "title" defaults.title readText).map Info.mk
    |>.app (fieldOr fs "version" defaults.version readText))
    |>.app (fieldOr fs "description" defaults.description readText)

/-- Read components and give their JSON form. -/
def readComponents : Reader Json := fun j =>
  (recordFields "Components" j).bind fun fs =>
  (fieldOr fs "schemas" .empty readObject).map fun schemas =>
    .obj [("schemas", .obj schemas.entries)]

/-- Read a document and give its JSON form. -/
def readDocument : Reader Json := fun j =>
  (recordFields "OpenAPIDocument" j).bind fun fs =>
  let make (version : String) (info : Info) (paths : OrderedMap Json)
      (components : Json) : Json :=
    .obj [("openapi", .str version), ("info", info.toJson),
      ("paths", .obj paths.entries), ("components", components)]
  (((fieldOr fs "openapi" documentVersion readText).map make
    |>.app (fieldOr fs "info" {} Info.read))
    |>.app (fieldOr fs "paths" .empty readObject))
    |>.app (fieldOr fs "components" (.obj [("schemas", .obj [])]) readComponents)

-- ============================================================== answers

/-- Read a verdict and give its JSON form. -/
def readVerdict : Reader Json := fun j =>
  (attributeFields j).bind fun fs =>
  let make (valid : Bool) (errors warnings : List String) : Json :=
    .obj [("valid", .bool valid), ("errors", Json.strings errors),
      ("warnings", Json.strings warnings)]
  ((field fs "valid" readBoolean).map make
    |>.app (fieldOr fs "errors" [] (readList readText)))
    |>.app (fieldOr fs "warnings" [] (readList readText))

/-- Read the answer of a transformation and give its JSON form. -/
def readTransformed : Reader Json := fun j =>
  (attributeFields j).bind fun fs =>
  let make (document : OrderedMap Json) (rendered : Option String)
      (verdict : Option Json) : Json :=
    .obj [("document", .obj document.entries), ("rendered", Json.orNull .str rendered),
      ("validation", Json.orNull id verdict)]
  ((field fs "document" readObject).map make
    |>.app (fieldOr fs "rendered" none (readNullable readText)))
    |>.app (fieldOr fs "validation" none (readNullable readVerdict))

/-- Read a sample; its file name has two names, and the one used outside
counts. -/
def Sample.read : Reader Sample := fun j =>
  (attributeFields j).bind fun fs =>
  let key := if (fs.lookup "fileName").isNone && (fs.lookup "file_name").isSome then
    "file_name" else "fileName"
  (((field fs "id" readText).map Sample.mk
    |>.app (field fs key readText))
    |>.app (field fs "label" readText))
    |>.app (field fs "content" readText)

-- ================================================================ forms

/-- The form of records that a reader and a writer belong to. -/
def formOf {α : Type} (name : String) (fields : List String) (frozen : Bool)
    (reader : Reader α) (toJson : α → Json) : RecordForm :=
  { name, fields, frozen, read := fun j => (reader j).map toJson }

/-- The forms of the parts of diagrams. -/
def diagramForms : List RecordForm :=
  [formOf "Attribute" ["name", "type", "access"] true Attribute.read Attribute.toJson,
   formOf "Method" ["name", "return_type", "access"] true Method.read Method.toJson,
   formOf "ClassLike" ["name", "kind", "attributes", "methods"] true
    Entity.read Entity.toJson,
   formOf "EnumType" ["name", "values"] true Enumeration.read Enumeration.toJson,
   formOf "Cardinality" ["kind", "raw", "value", "lower", "upper", "label"] true
    Cardinality.read Cardinality.toJson,
   formOf "CardinalityDecision" ["is_array", "required", "min_items", "max_items"] true
    Decision.read Decision.toJson,
   formOf "Relation" ["source", "target", "kind", "symbol", "from_cardinality",
    "to_cardinality"] true Relation.read Relation.toJson,
   formOf "Diagram" ["classes", "interfaces", "enums", "relations"] true
    Diagram.read Diagram.toJson]

/-- The form of health records, with the seconds as a double. -/
def healthForm : RecordForm :=
  { formOf "HealthStatus" ["status", "service_name", "version", "fixtures",
      "uptime_seconds", "details"] false Health.read Health.toJson with
    numericFields := ["uptime_seconds"] }

/-- The form of samples, whose file name has another name outside. -/
def sampleForm : RecordForm :=
  { formOf "Fixture" ["id", "file_name", "label", "content"] false
      Sample.read (Sample.toJsonAs "file_name") with
    outsideNames := [("file_name", "fileName")] }

/-- The forms of documents, requests and answers. -/
def serviceForms : List RecordForm :=
  [formOf "InfoBlock" ["title", "version", "description"] true Info.read Info.toJson,
   formOf "Components" ["schemas"] true readComponents id,
   formOf "OpenAPIDocument" ["openapi", "info", "paths", "components"] true
    readDocument id,
   formOf "ValidationResult" ["valid", "errors", "warnings"] false readVerdict id,
   formOf "ParseRequest" ["diagram"] false ReadingRequest.read ReadingRequest.toJson,
   formOf "TransformRequest" ["diagram", "format", "validate_output"] false
    TransformationRequest.read TransformationRequest.toJson,
   formOf "TransformResponse" ["document", "rendered", "validation"] false
    readTransformed id,
   healthForm, sampleForm]

/-- The form of a name. -/
def findForm? (name : String) : Option RecordForm :=
  (diagramForms ++ serviceForms).find? fun f => f.name == name

end ApiScaffold
