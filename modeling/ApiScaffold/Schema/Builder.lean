/-
Building the component schemas of a diagram. Entities write their
attributes into drafts, relations add reference properties or record a
parent, and finalising turns enumerations and drafts into components.
Names are checked against the diagram alone, so what a relation does
never depends on the relations before it.

A builder is driven by steps; `Step` is the list of what can be asked of
it, and `run` the sequence of its states and answers.
-/
import ApiScaffold.Api.Naming
import ApiScaffold.Diagram.Relation
import ApiScaffold.Schema.Component
import ApiScaffold.Schema.TypeToken

namespace ApiScaffold

-- ============================================================= summaries

/-- One method in a summary: its access level, its name and its return
type. -/
def Method.summary (m : Method) : String :=
  let suffix := match m.returnType with
    | some t => if t.isEmpty then "" else ": " ++ t
    | none => ""
  m.access.name ++ " " ++ m.name ++ "()" ++ suffix

/-- Methods joined by commas. -/
def methodSummary (methods : List Method) : String :=
  ", ".intercalate (methods.map Method.summary)

-- ============================================================= relations

/-- Relations that give their source a property. -/
def RelationKind.isStructural : RelationKind → Bool
  | .composition | .aggregation | .association => true
  | _ => false

/-- Whether a relation records a parent: the target inherits from the
source, both are classes or interfaces, and they differ. -/
def Diagram.givesParent (d : Diagram) (r : Relation) : Bool :=
  r.kind == .inheritance && r.target != r.source
    && d.entityNames.contains r.target && d.entityNames.contains r.source

/-- Whether a relation gives its source a property. -/
def Diagram.givesProperty (d : Diagram) (r : Relation) : Bool :=
  r.kind.isStructural && d.entityNames.contains r.source
    && d.declaredNames.contains r.target

/-- The schema of the property that a relation becomes. -/
def relationSchema (r : Relation) : Fragment :=
  let decision := Decision.ofCardinality? r.toCardinality
  let ref := Fragment.component r.target
  if decision.isArray then .array ref decision.minItems decision.maxItems else ref

-- =============================================================== builder

/-- The state of a builder. -/
structure Builder where
  diagram : Diagram
  drafts : OrderedMap Draft := .empty
  /-- The parents of each child, in the order in which they came. -/
  parents : OrderedMap (List String) := .empty
  finished : Bool := false
deriving Inhabited

namespace Builder

/-- A fresh builder for a diagram. -/
def new (d : Diagram) : Builder := { diagram := d }

/-- The draft under a name, a blank one where there is none. -/
def draftOf (b : Builder) (name : String) : Draft := (b.drafts.get? name).getD {}

/-- Change the draft under a name, creating it first where there is
none. -/
def updateDraft (b : Builder) (name : String) (f : Draft → Draft) : Builder :=
  { b with drafts := b.drafts.put name (f (b.draftOf name)) }

/-- Write an entity's attributes and the summary of its methods. Public
attributes are required. -/
def writeEntity (b : Builder) (e : Entity) : Builder :=
  b.updateDraft e.name fun draft =>
    let names := b.diagram.declaredNames
    let draft := e.attributes.foldl
      (fun d a => d.write a.name (fragmentOfType names a.type) (a.access == .pub))
      draft
    let summary := methodSummary e.methods
    if summary.isEmpty then draft
    else draft.describe ("Methods: " ++ summary)

/-- Record a parent once. -/
def addParent (b : Builder) (child parent : String) : Builder :=
  let known := (b.parents.get? child).getD []
  { b with
    parents := b.parents.put child
      (if known.contains parent then known else known ++ [parent]) }

/-- Record inheritance or write a reference property. -/
def relate (b : Builder) (r : Relation) : Builder :=
  if b.diagram.givesParent r then b.addParent r.target r.source
  else if b.diagram.givesProperty r then
    b.updateDraft r.source fun draft =>
      draft.write (propertyName r.target) (relationSchema r)
        (Decision.ofCardinality? r.toCardinality).required
  else b

/-- The component of a draft: with parents it inherits from them. -/
def componentOf (b : Builder) (name : String) (own : Draft) : Component :=
  match b.parents.get? name with
  | some (p :: ps) => .inheriting (p :: ps) own
  | _ => .object own

/-- The components: enumerations first, then drafts, a draft taking the
place of an enumeration of its name. -/
def components (b : Builder) : OrderedMap Component :=
  let enums := OrderedMap.ofList
    (b.diagram.enums.map fun e => (e.name, Component.enumeration e.values))
  enums.putAll
    (b.drafts.entries.map fun (name, own) => (name, b.componentOf name own))

/-- Write every entity and apply every relation of the diagram. -/
def load (b : Builder) : Builder :=
  let b := b.diagram.entities.foldl writeEntity b
  b.diagram.relations.foldl relate b

-- ================================================================= steps

/-- What can be asked of a builder. -/
inductive Step where
  | draft (name : String)
  | entity (e : Entity)
  | relation (r : Relation)
  | line (text : String)
  | set (name property : String) (schema : Fragment) (required : Bool)
  | describe (name line : String)
  | resolve (type : Option String)
  | build
  | finish

/-- What a step answers. -/
inductive Answer where
  | nothing
  | draft (d : Draft)
  | fragment (f : Fragment)
  | components (m : OrderedMap Component)

/-- Why a step fails. -/
inductive StepFailure where
  /-- Components were already produced. -/
  | alreadyFinished
  /-- The line encodes no relation. -/
  | noRelation
  | numeralTooLong (e : NumeralTooLong)
deriving Repr, DecidableEq

/-- Produce the components; a builder does so once. -/
def finish (b : Builder) : Builder × Except StepFailure Answer :=
  if b.finished then (b, .error .alreadyFinished)
  else ({ b with finished := true }, .ok (.components b.components))

/-- Take one step. Changes made before a failure stay. -/
def step (b : Builder) : Step → Builder × Except StepFailure Answer
  | .draft name =>
    let b := b.updateDraft name id
    (b, .ok (.draft (b.draftOf name)))
  | .entity e => (b.writeEntity e, .ok .nothing)
  | .relation r => (b.relate r, .ok .nothing)
  | .line text => match Relation.ofLine? text.toList with
    | .ok (some r) => (b.relate r, .ok .nothing)
    | .ok none => (b, .error .noRelation)
    | .error e => (b, .error (.numeralTooLong e))
  | .set name property schema required =>
    (b.updateDraft name (·.write property schema required), .ok .nothing)
  | .describe name line => (b.updateDraft name (·.describe line), .ok .nothing)
  | .resolve type => (b, .ok (.fragment (fragmentOfType b.diagram.declaredNames type)))
  | .build => b.load.finish
  | .finish => b.finish

/-- Take steps in order; each answer stands beside the state after its
step. -/
def run (b : Builder) : List Step → List (Builder × Except StepFailure Answer)
  | [] => []
  | s :: rest => let r := b.step s; r :: r.1.run rest

end Builder

/-- The component schemas of a diagram. -/
def Diagram.componentSchemas (d : Diagram) : OrderedMap Component :=
  (Builder.new d).load.components

end ApiScaffold
