/-
Component schemas. The schema of a class or interface is drafted piece by
piece: properties in the order in which they were first written, the
names of the required ones in the order in which they became required,
and a description that grows by lines.
-/
import ApiScaffold.Schema.Fragment

namespace ApiScaffold

/-- An object schema in the making. -/
structure Draft where
  properties : OrderedMap Fragment := .empty
  required : List String := []
  description : Option String := none
deriving Inhabited

namespace Draft

/-- Write a property; the last write decides its schema and whether it is
required. -/
def write (d : Draft) (name : String) (schema : Fragment) (required : Bool) :
    Draft where
  properties := d.properties.put name schema
  required :=
    if required then
      if d.required.contains name then d.required else d.required ++ [name]
    else d.required.erase name
  description := d.description

/-- Add a line to the description; an empty description is replaced. -/
def describe (d : Draft) (line : String) : Draft :=
  { d with
    description := match d.description with
      | some text => if text.isEmpty then some line else some (text ++ "\n" ++ line)
      | none => some line }

/-- The fields of the object schema; those without content are left
out. -/
def fields (d : Draft) : List (String × Json) :=
  let properties := d.properties.mapValues Fragment.toJson
  [("type", .str "object")]
    ++ (if properties.entries.isEmpty then []
        else [("properties", Json.obj properties.entries)])
    ++ (if d.required.isEmpty then [] else [("required", Json.strings d.required)])
    ++ (match d.description with
        | some text => if text.isEmpty then [] else [("description", .str text)]
        | none => [])

/-- The JSON form of the object schema. -/
def toJson (d : Draft) : Json := .obj d.fields

end Draft

/-- A schema under `components`. -/
inductive Component where
  | enumeration (values : List String)
  | object (own : Draft)
  /-- All schemas of the parents, then the own object schema. -/
  | inheriting (parents : List String) (own : Draft)
deriving Inhabited

/-- The JSON form of a component schema. -/
def Component.toJson : Component → Json
  | .enumeration values =>
    .obj [("type", .str "string"), ("enum", Json.strings values)]
  | .object own => own.toJson
  | .inheriting parents own =>
    .obj [("allOf",
      .arr (parents.map (fun p => (Fragment.component p).toJson) ++ [own.toJson]))]

/-- The JSON form of a map of component schemas. -/
def componentsJson (m : OrderedMap Component) : Json :=
  .obj (m.mapValues Component.toJson).entries

end ApiScaffold
