/-
The structure of a document: the shapes of its parts, and the rules that
tie parts together. Operation identifiers must differ, every parameter in
a path must be declared by its operations, and every component schema
must be one. Parts that cannot be walked through end the examination.
-/
import ApiScaffold.Api.Shape
import ApiScaffold.Data.OrderedMap

namespace ApiScaffold

-- =================================================== shapes of the parts

/-- Extensions, whose names start with `x-`, may hold anything. -/
def extension? (key : String) : Option Shape :=
  if key.startsWith "x-" then some .any else none

/-- The versions of the document format. -/
def versionRule : TextRule where
  text := "^3\\.1\\.\\d+(-.+)?$"
  pattern := .sequence
    [.word "3.1.", .some (.one isDecimal),
     .optional (.sequence [.char '-', .some (.one (· ≠ '\n'))])]

/-- The names of components. -/
def componentNameRule : TextRule where
  text := "^[a-zA-Z0-9._-]+$"
  pattern := .some (.one fun c => c.isAlphanum || c = '.' || c = '_' || c = '-')

/-- The `info` block. -/
def infoShape : Shape :=
  .object
    [("title", .text none), ("summary", .text none), ("description", .text none),
     ("termsOfService", .text none), ("contact", .mapOf .any),
     ("license", .mapOf .any), ("version", .text none)]
    extension? { required := ["title", "version"] }

/-- The paths: objects under keys that start with a slash. -/
def pathsShape : Shape :=
  .object []
    (fun key => if key.startsWith "/" then some (.mapOf .any) else extension? key) {}

/-- The components, with restricted names. -/
def componentsShape : Shape :=
  .object
    (("schemas", .mapOf .schema)
      :: ["responses", "parameters", "examples", "requestBodies", "headers",
          "securitySchemes", "links", "callbacks", "pathItems"].map fun key =>
            (key, .mapOf (.mapOf .any)))
    extension? { innerKeys := some componentNameRule }

/-- A whole document. -/
def documentShape : Shape :=
  .object
    [("openapi", .text (some versionRule)), ("info", infoShape),
     ("jsonSchemaDialect", .text none), ("servers", .list), ("paths", pathsShape),
     ("webhooks", .mapOf (.mapOf .any)), ("components", componentsShape),
     ("security", .list), ("tags", .list), ("externalDocs", .mapOf .any)]
    extension?
    { required := ["openapi", "info"], oneOf := ["paths", "components", "webhooks"] }

-- ========================================================= examination

/-- What the rules between parts find. -/
inductive Finding where
  | duplicateId (id method path : String)
  | unresolvedParameter (parameter method path : String)
  /-- A component schema is no schema. -/
  | noSchema (fault : PlacedFault)
  /-- A part has no fields to walk through. -/
  | noFields (key : String)
deriving Inhabited, Repr

namespace Finding

/-- Whether the examination ends here. -/
def isLast : Finding → Bool
  | noFields _ => true
  | _ => false

/-- The wording of a finding. -/
def message : Finding → String
  | duplicateId id method path =>
    "Operation ID '" ++ id ++ "' for '" ++ method ++ "' in '" ++ path
      ++ "' is not unique"
  | unresolvedParameter parameter method path =>
    "Path parameter '" ++ parameter ++ "' for '" ++ method ++ "' operation in '"
      ++ path ++ "' was not resolved"
  | noSchema fault => fault.message
  | noFields key => "Unexpected error during spec validation: " ++ quotedText key

/-- The findings up to the one that ends the examination. -/
def untilLast : List Finding → List Finding
  | [] => []
  | f :: rest => if f.isLast then [f] else f :: untilLast rest

end Finding

/-- The methods of a path item. -/
def operationMethods : List String :=
  ["get", "put", "post", "delete", "options", "head", "patch", "trace"]

/-- Walk through the fields of the value under a key. Lists have none,
and other values cannot be walked through. -/
def walkFields (key : String) (visit : List (String × Json) → List Finding) :
    Json → List Finding
  | .obj fields => visit fields
  | .arr _ => []
  | _ => [.noFields key]

-- ---------------------------------------------------------- operations

/-- An operation with its place in the document. -/
structure PlacedOperation where
  path : String
  method : String
  operation : Json
  /-- The parameters of the whole path item. -/
  shared : Option Json
deriving Inhabited

/-- The operations of a path item. -/
def operationsOf (path : String) (item : Json) : List PlacedOperation :=
  item.fieldsOf.filterMap fun (key, value) =>
    if operationMethods.contains key then
      some ⟨path, key, value, item.field? "parameters"⟩
    else none

/-- The names of the path parameters in a list of parameters. -/
def parameterNames : Option Json → List String
  | some (.arr items) => items.filterMap fun item =>
    match item.field? "in", item.field? "name" with
    | some (.str "path"), some (.str name) => some name
    | _, _ => none
  | _ => []

/-- The names in braces of a path. `name` holds the characters since the
opening brace, last first, if the text lies inside braces. -/
def bracedNames (name : Option (List Char)) : List Char → List String
  | [] => []
  | c :: cs => match name with
    | none => if c = '\x7b' then bracedNames (some []) cs else bracedNames none cs
    | some before =>
      if c = '\x7d' then
        if before.isEmpty then bracedNames none cs
        else String.ofList before.reverse :: bracedNames none cs
      else bracedNames (some (c :: before)) cs

/-- The identifier of an operation. -/
def PlacedOperation.id? (o : PlacedOperation) : Option String :=
  match o.operation.field? "operationId" with
  | some (.str id) => some id
  | _ => none

/-- The parameters of the path that an operation does not declare. -/
def PlacedOperation.missing (o : PlacedOperation) : List String :=
  let declared :=
    parameterNames (o.operation.field? "parameters") ++ parameterNames o.shared
  (bracedNames none o.path.toList).filter fun name => !declared.contains name

/-- The findings about operations; `seen` holds the identifiers that came
before. -/
def operationFindings (seen : List String) : List PlacedOperation → List Finding
  | [] => []
  | o :: rest =>
    let duplicate := match o.id? with
      | some id => if seen.contains id then [.duplicateId id o.method o.path] else []
      | none => []
    duplicate ++ o.missing.map (.unresolvedParameter · o.method o.path)
      ++ operationFindings (o.id?.toList ++ seen) rest

/-- The operations of path items up to the first item that cannot be
walked through, and the key of that item. -/
def placedOperations : List (String × Json) → List PlacedOperation × Option String
  | [] => ([], none)
  | (path, item) :: rest => match item with
    | .obj _ | .arr _ =>
      let (operations, stop) := placedOperations rest
      (operationsOf path item ++ operations, stop)
    | _ => ([], some path)

/-- The findings about paths. -/
def pathFindings (paths : List (String × Json)) : List Finding :=
  let (operations, stop) := placedOperations paths
  operationFindings [] operations ++ (stop.map Finding.noFields).toList

-- ------------------------------------------------------------- schemas

/-- The names of types in a schema. -/
def schemaTypes : List String :=
  ["array", "boolean", "integer", "null", "number", "object", "string"]

/-- Whether a value names types: one, or several different ones. -/
def namesTypes : Json → Bool
  | .str s => schemaTypes.contains s
  | .arr items =>
    let names := items.filterMap fun item => match item with
      | .str s => some s
      | _ => none
    !items.isEmpty && names.length == items.length && names.all schemaTypes.contains
      && names.eraseDups.length == names.length
  | _ => false

/-- The findings about a component schema. -/
def schemaFindings : Json → List Finding
  | .obj fields => match fields.lookup "type" with
    | some type => if namesTypes type then [] else [.noSchema ⟨.matchesNone type, ["type"]⟩]
    | none => []
  | .bool _ => []
  | j => [.noSchema ⟨.wrongType j ["object", "boolean"], []⟩]

/-- The findings about components. -/
def componentFindings (components : Json) : List Finding :=
  match components.field? "schemas" with
  | some schemas =>
    walkFields "schemas" (fun fields => fields.flatMap fun (_, s) => schemaFindings s)
      schemas
  | none => []

-- =========================================================== documents

/-- The findings about a document. -/
def Json.findings (doc : Json) : List Finding :=
  let ofPaths := match doc.field? "paths" with
    | some paths => walkFields "paths" pathFindings paths
    | none => []
  let ofComponents := match doc.field? "components" with
    | some components => componentFindings components
    | none => []
  Finding.untilLast (ofPaths ++ ofComponents)

/-- All messages about the structure of a document. -/
def Json.structureMessages (doc : Json) : List String :=
  (documentShape.faults [] doc).map PlacedFault.message
    ++ doc.findings.map Finding.message

end ApiScaffold
