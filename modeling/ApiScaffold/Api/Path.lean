/-
Paths: every class with a component schema gets a collection path, to
list and to create, and an item path, to read, update and delete.
Failures are described by a shared error schema, which is added to the
components with the first class that needs it.
-/
import ApiScaffold.Api.Naming
import ApiScaffold.Schema.Component

namespace ApiScaffold

-- ============================================================ operations

/-- The methods that are generated. -/
inductive HttpMethod where
  | get
  | post
  | put
  | delete
deriving Inhabited, Repr, DecidableEq

/-- The key of a method in a path item. -/
def HttpMethod.name : HttpMethod → String
  | .get => "get"
  | .post => "post"
  | .put => "put"
  | .delete => "delete"

/-- A response; `body` is the schema of its content. -/
structure Response where
  status : String
  description : String
  body : Option Fragment := none
deriving Inhabited

/-- An operation of a path item. -/
structure Operation where
  method : HttpMethod
  summary : String
  identifier : String
  tag : String
  /-- Whether the operation takes the identifier of an item. -/
  onItem : Bool := false
  requestBody : Option Fragment := none
  responses : List Response := []
deriving Inhabited

/-- A path item. -/
structure PathItem where
  summary : String
  operations : List Operation
deriving Inhabited

-- ============================================================= JSON form

/-- JSON content with a schema. -/
def schemaContent (schema : Fragment) : Json :=
  .obj [("application/json", .obj [("schema", schema.toJson)])]

/-- A response with its status as key. -/
def Response.entry (r : Response) : String × Json :=
  (r.status, .obj (("description", .str r.description)
    :: Fragment.optionalField "content" (r.body.map schemaContent)))

/-- The parameter that identifies an item. -/
def itemParameter (tag : String) : Json :=
  .obj [("name", .str "id"), ("in", .str "path"), ("required", .bool true),
    ("schema", Fragment.text.toJson), ("description", .str (tag ++ " identifier"))]

/-- The JSON form of an operation. -/
def Operation.toJson (o : Operation) : Json :=
  .obj ([("summary", .str o.summary), ("operationId", .str o.identifier),
      ("tags", Json.strings [o.tag])]
    ++ (if o.onItem then [("parameters", Json.arr [itemParameter o.tag])] else [])
    ++ Fragment.optionalField "requestBody" (o.requestBody.map fun body =>
        .obj [("required", .bool true), ("content", schemaContent body)])
    ++ [("responses", .obj (o.responses.map Response.entry))])

/-- The JSON form of a path item. -/
def PathItem.toJson (p : PathItem) : Json :=
  .obj (("summary", .str p.summary)
    :: p.operations.map fun o => (o.method.name, o.toJson))

-- ====================================================== generated paths

/-- An operation identifier; hyphens of the segment become
underscores. -/
def actionIdentifier (action segment suffix : String) : String :=
  action ++ "_"
    ++ String.ofList (segment.toList.map fun c => if c = '-' then '_' else c)
    ++ suffix

/-- The collection path of a segment. -/
def collectionPath (segment : String) : String := "/" ++ segment

/-- The item path of a segment. -/
def itemPath (segment : String) : String := "/" ++ segment ++ "/\x7bid\x7d"

/-- The path item of a collection. -/
def collectionItem (name segment errorRef : String) : PathItem :=
  let entity := Fragment.component name
  { summary := name ++ " collection"
    operations :=
      [{ method := .get
         summary := "List " ++ name ++ "s"
         identifier := actionIdentifier "list" segment ""
         tag := name
         responses := [⟨"200", "List of " ++ name ++ "s",
           some (.array entity none none)⟩] },
       { method := .post
         summary := "Create " ++ name
         identifier := actionIdentifier "create" segment ""
         tag := name
         requestBody := some entity
         responses :=
           [⟨"201", name ++ " created", some entity⟩,
            ⟨"400", "Invalid payload", some (.ref errorRef)⟩] }] }

/-- The path item of one item. -/
def singleItem (name segment errorRef : String) : PathItem :=
  let entity := Fragment.component name
  let notFound : Response := ⟨"404", name ++ " not found", some (.ref errorRef)⟩
  { summary := name ++ " item"
    operations :=
      [{ method := .get
         summary := "Get " ++ name
         identifier := actionIdentifier "get" segment "_by_id"
         tag := name
         onItem := true
         responses := [⟨"200", name ++ " details", some entity⟩, notFound] },
       { method := .put
         summary := "Update " ++ name
         identifier := actionIdentifier "update" segment ""
         tag := name
         onItem := true
         requestBody := some entity
         responses := [⟨"200", name ++ " updated", some entity⟩, notFound] },
       { method := .delete
         summary := "Delete " ++ name
         identifier := actionIdentifier "delete" segment ""
         tag := name
         onItem := true
         responses := [⟨"204", name ++ " deleted", none⟩, notFound] }] }

/-- The two paths of one resource. -/
def crudPaths (name segment errorRef : String) : List (String × PathItem) :=
  [(collectionPath segment, collectionItem name segment errorRef),
   (itemPath segment, singleItem name segment errorRef)]

-- ========================================================== error schema

/-- The component name of the shared error schema. -/
def errorName : String := "ApiError"

/-- The shared error schema. -/
def errorSchema : Draft where
  properties := .ofList [("message", .text), ("code", .text)]
  required := ["message"]
  description := some "Standard error payload."

/-- The components with the error schema, which is added at the end
unless the name is taken. -/
def withErrorSchema {α : Type} (error : α) (schemas : OrderedMap α) : OrderedMap α :=
  if schemas.has errorName then schemas else schemas.put errorName error

/-- Add the paths of one class, if it has a component schema. The flag
tells whether the error schema is in place. -/
def addClassPaths {α : Type} (error : α)
    (state : Bool × OrderedMap PathItem × OrderedMap α) (name : String) :
    Bool × OrderedMap PathItem × OrderedMap α :=
  let (ready, paths, schemas) := state
  if schemas.has name then
    let schemas := if ready then schemas else withErrorSchema error schemas
    (true, paths.putAll (crudPaths name (pathSegment name) (componentRef errorName)),
      schemas)
  else (ready, paths, schemas)

/-- The paths of classes, given by name, and the components with the
error schema where some class got paths. -/
def resourcePaths {α : Type} (error : α) (classes : List String) (schemas : OrderedMap α) :
    OrderedMap PathItem × OrderedMap α :=
  (classes.foldl (addClassPaths error) (false, .empty, schemas)).2

end ApiScaffold
