/-
Class diagrams: classes and interfaces with their members, enumerations,
and the relations drawn between them. Lists keep the order of
declaration, and nothing here requires names to be distinct or
endpoints to be declared; what is made of clashes is decided where a
diagram is turned into component schemas.
-/

namespace ApiScaffold

-- ============================================================= members

/-- Who may use a member. -/
inductive Access where
  | pub
  | priv
  | prot
  | pkg
deriving Inhabited, Repr, DecidableEq

/-- The name of an access level. -/
def Access.name : Access → String
  | .pub => "public"
  | .priv => "private"
  | .prot => "protected"
  | .pkg => "package"

/-- All access levels. -/
def Access.all : List Access := [.pub, .priv, .prot, .pkg]

/-- An attribute of a class or interface; its type is kept as written. -/
structure Attribute where
  name : String
  type : Option String := none
  access : Access := .pub
deriving Inhabited, Repr, DecidableEq

/-- A method of a class or interface; parameters are not kept. -/
structure Method where
  name : String
  returnType : Option String := none
  access : Access := .pub
deriving Inhabited, Repr, DecidableEq

-- ======================================================== declarations

/-- The two kinds of declarations with members. -/
inductive EntityKind where
  | classEntity
  | interfaceEntity
deriving Inhabited, Repr, DecidableEq

/-- The keyword of a kind of entity. -/
def EntityKind.name : EntityKind → String
  | .classEntity => "class"
  | .interfaceEntity => "interface"

/-- All kinds of entities. -/
def EntityKind.all : List EntityKind := [.classEntity, .interfaceEntity]

/-- A class or an interface. -/
structure Entity where
  name : String
  kind : EntityKind := .classEntity
  attributes : List Attribute := []
  methods : List Method := []
deriving Inhabited, Repr, DecidableEq

/-- An enumeration; the order of its values is kept. -/
structure Enumeration where
  name : String
  values : List String := []
deriving Inhabited, Repr, DecidableEq

-- =========================================================== relations

/-- The shapes of a multiplicity. -/
inductive CardinalityKind where
  | exact
  | range
  | many
  | custom
deriving Inhabited, Repr, DecidableEq

/-- The name of a shape of multiplicity. -/
def CardinalityKind.name : CardinalityKind → String
  | .exact => "exact"
  | .range => "range"
  | .many => "many"
  | .custom => "custom"

/-- All shapes of a multiplicity. -/
def CardinalityKind.all : List CardinalityKind := [.exact, .range, .many, .custom]

/-- The multiplicity at one end of a relation. `raw` is the token as
written; `value` belongs to exact multiplicities, the bounds to ranges,
where a missing bound leaves that side open, and `label` to anything
else. -/
structure Cardinality where
  kind : CardinalityKind
  raw : String
  value : Option Int := none
  lower : Option Int := none
  upper : Option Int := none
  label : Option String := none
deriving Inhabited, Repr, DecidableEq

/-- What a relation says about its two ends. -/
inductive RelationKind where
  | association
  | inheritance
  | composition
  | aggregation
  | dependency
  | unknown
deriving Inhabited, Repr, DecidableEq

/-- The name of a kind of relation. -/
def RelationKind.name : RelationKind → String
  | .association => "association"
  | .inheritance => "inheritance"
  | .composition => "composition"
  | .aggregation => "aggregation"
  | .dependency => "dependency"
  | .unknown => "unknown"

/-- All kinds of relations. -/
def RelationKind.all : List RelationKind :=
  [.association, .inheritance, .composition, .aggregation, .dependency, .unknown]

/-- A relation between two named declarations. The multiplicity at the
target decides the shape of the property it becomes. -/
structure Relation where
  source : String
  target : String
  kind : RelationKind
  symbol : String := ""
  fromCardinality : Option Cardinality := none
  toCardinality : Option Cardinality := none
deriving Inhabited, Repr, DecidableEq

-- ============================================================= diagram

/-- Everything read from one diagram text. -/
structure Diagram where
  classes : List Entity := []
  interfaces : List Entity := []
  enums : List Enumeration := []
  relations : List Relation := []
deriving Inhabited, Repr, DecidableEq

namespace Diagram

/-- Classes followed by interfaces. -/
def entities (d : Diagram) : List Entity := d.classes ++ d.interfaces

/-- The names of classes and interfaces. -/
def entityNames (d : Diagram) : List String := d.entities.map Entity.name

/-- The names that a schema may refer to: those of classes, interfaces
and enumerations. -/
def declaredNames (d : Diagram) : List String :=
  d.entityNames ++ d.enums.map Enumeration.name

end Diagram

end ApiScaffold
