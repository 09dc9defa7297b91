/-
Diagrams as JSON. Every part of a diagram has one JSON form, with its
fields in a fixed order, and a reader that takes the form back; missing
fields take their defaults and unknown ones are passed over. A relation
also shows the multiplicity that decides its property, which is not read
back because it repeats the one at the target.
-/
import ApiScaffold.Diagram.Cardinality
import ApiScaffold.Record.Scalar

namespace ApiScaffold

-- =============================================================== members

/-- The JSON form of an attribute. -/
def Attribute.toJson (a : Attribute) : Json :=
  .obj [("name", .str a.name), ("type", Json.orNull .str a.type),
    ("access", .str a.access.name)]

/-- Read an access level. -/
def Access.read : Reader Access := readNamed Access.name Access.all

/-- Read an attribute. -/
def Attribute.read : Reader Attribute := fun j =>
  (recordFields "Attribute" j).bind fun fs =>
  ((field fs "name" readText).map Attribute.mk
    |>.app (fieldOr fs "type" none (readNullable readText)))
    |>.app (fieldOr fs "access" .pub Access.read)

/-- The JSON form of a method. -/
def Method.toJson (m : Method) : Json :=
  .obj [("name", .str m.name), ("return_type", Json.orNull .str m.returnType),
    ("access", .str m.access.name)]

/-- Read a method. -/
def Method.read : Reader Method := fun j =>
  (recordFields "Method" j).bind fun fs =>
  ((field fs "name" readText).map Method.mk
    |>.app (fieldOr fs "return_type" none (readNullable readText)))
    |>.app (fieldOr fs "access" .pub Access.read)

-- ========================================================== declarations

/-- The JSON form of a class or interface. -/
def Entity.toJson (e : Entity) : Json :=
  .obj [("name", .str e.name), ("kind", .str e.kind.name),
    ("attributes", .arr (e.attributes.map Attribute.toJson)),
    ("methods", .arr (e.methods.map Method.toJson))]

/-- Read a class or interface. -/
def Entity.read : Reader Entity := fun j =>
  (recordFields "ClassLike" j).bind fun fs =>
  (((field fs "name" readText).map Entity.mk
    |>.app (fieldOr fs "kind" .classEntity (readNamed EntityKind.name EntityKind.all)))
    |>.app (fieldOr fs "attributes" [] (readList Attribute.read)))
    |>.app (fieldOr fs "methods" [] (readList Method.read))

/-- The JSON form of an enumeration. -/
def Enumeration.toJson (e : Enumeration) : Json :=
  .obj [("name", .str e.name), ("values", Json.strings e.values)]

/-- Read an enumeration. -/
def Enumeration.read : Reader Enumeration := fun j =>
  (recordFields "EnumType" j).bind fun fs =>
  (field fs "name" readText).map Enumeration.mk
    |>.app (fieldOr fs "values" [] (readList readText))

-- ============================================================= relations

/-- The JSON form of a multiplicity. -/
def Cardinality.toJson (c : Cardinality) : Json :=
  .obj [("kind", .str c.kind.name), ("raw", .str c.raw),
    ("value", Json.orNull .int c.value), ("lower", Json.orNull .int c.lower),
    ("upper", Json.orNull .int c.upper), ("label", Json.orNull .str c.label)]

/-- Read a multiplicity. -/
def Cardinality.read : Reader Cardinality := fun j =>
  (recordFields "Cardinality" j).bind fun fs =>
  let number (name : String) : Checked (Option Int) :=
    fieldOr fs name none (readNullable readInteger)
  (((((field fs "kind" (readNamed CardinalityKind.name CardinalityKind.all)).map
      Cardinality.mk
    |>.app (field fs "raw" readText))
    |>.app (number "value"))
    |>.app (number "lower"))
    |>.app (number "upper"))
    |>.app (fieldOr fs "label" none (readNullable readText))

/-- The JSON form of a decision. -/
def Decision.toJson (d : Decision) : Json :=
  .obj [("is_array", .bool d.isArray), ("required", .bool d.required),
    ("min_items", Json.orNull .int d.minItems),
    ("max_items", Json.orNull .int d.maxItems)]

/-- Read a decision. -/
def Decision.read : Reader Decision := fun j =>
  (recordFields "CardinalityDecision" j).bind fun fs =>
  (((fieldOr fs "is_array" false readBoolean).map Decision.mk
    |>.app (fieldOr fs "required" false readBoolean))
    |>.app (fieldOr fs "min_items" none (readNullable readInteger)))
    |>.app (fieldOr fs "max_items" none (readNullable readInteger))

/-- The JSON form of a relation. -/
def Relation.toJson (r : Relation) : Json :=
  .obj [("source", .str r.source), ("target", .str r.target),
    ("kind", .str r.kind.name), ("symbol", .str r.symbol),
    ("from_cardinality", Json.orNull Cardinality.toJson r.fromCardinality),
    ("to_cardinality", Json.orNull Cardinality.toJson r.toCardinality),
    ("cardinality", Json.orNull Cardinality.toJson r.toCardinality)]

/-- Read a relation. -/
def Relation.read : Reader Relation := fun j =>
  (recordFields "Relation" j).bind fun fs =>
  let multiplicity (name : String) : Checked (Option Cardinality) :=
    fieldOr fs name none (readNullable Cardinality.read)
  (((((field fs "source" readText).map Relation.mk
    |>.app (field fs "target" readText))
    |>.app (field fs "kind" (readNamed RelationKind.name RelationKind.all)))
    |>.app (fieldOr fs "symbol" "" readText))
    |>.app (multiplicity "from_cardinality"))
    |>.app (multiplicity "to_cardinality")

-- =============================================================== diagram

/-- The JSON form of a diagram. -/
def Diagram.toJson (d : Diagram) : Json :=
  .obj [("classes", .arr (d.classes.map Entity.toJson)),
    ("interfaces", .arr (d.interfaces.map Entity.toJson)),
    ("enums", .arr (d.enums.map Enumeration.toJson)),
    ("relations", .arr (d.relations.map Relation.toJson))]

/-- Read a diagram. -/
def Diagram.read : Reader Diagram := fun j =>
  (recordFields "Diagram" j).bind fun fs =>
  (((fieldOr fs "classes" [] (readList Entity.read)).map Diagram.mk
    |>.app (fieldOr fs "interfaces" [] (readList Entity.read)))
    |>.app (fieldOr fs "enums" [] (readList Enumeration.read)))
    |>.app (fieldOr fs "relations" [] (readList Relation.read))

end ApiScaffold
