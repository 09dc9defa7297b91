/-
The export of a diagram loses nothing. Each part of a diagram is read back
from its JSON form, from the names of access levels up: a name by itself, a
text, count or multiplicity that may be missing as a nullable value, members
and declarations as lists of records. The multiplicity that a relation shows
a second time is a field its reader does not ask for, and so it makes no
difference to what is read.
-/
import ApiScaffold.Diagram.Export
import ApiScaffold.Proofs.Api.Closure
import ApiScaffold.Proofs.Record.ReadBack

namespace ApiScaffold

-- ========================================================= nullable values

/-- A text that may be missing is read back. -/
theorem readText_orNull (o : Option String) :
    readNullable readText (Json.orNull .str o) = .ok o :=
  readNullable_orNull (f := Json.str) (fun _ => rfl) (fun _ h => by cases h) o

/-- A count that may be missing is read back. -/
theorem readInteger_orNull (o : Option Int) :
    readNullable readInteger (Json.orNull .int o) = .ok o :=
  readNullable_orNull (f := Json.int) (fun _ => rfl) (fun _ h => by cases h) o

-- ================================================================= members

/-- An access level is read back from its name. -/
theorem Access.read_name (a : Access) : Access.read (.str a.name) = .ok a := by
  cases a <;> rfl

/-- An attribute is read back from its record. -/
theorem Attribute.read_toJson (a : Attribute) :
    Attribute.read a.toJson = .ok a := by
  unfold Attribute.read Attribute.toJson recordFields Checked.bind
  simp only
  rw [field_of_lookup (a := a.name) rfl rfl,
    fieldOr_of_lookup rfl (readText_orNull a.type),
    fieldOr_of_lookup rfl (Access.read_name a.access)]
  rfl

/-- A method is read back from its record. -/
theorem Method.read_toJson (m : Method) : Method.read m.toJson = .ok m := by
  unfold Method.read Method.toJson recordFields Checked.bind
  simp only
  rw [field_of_lookup (a := m.name) rfl rfl,
    fieldOr_of_lookup rfl (readText_orNull m.returnType),
    fieldOr_of_lookup rfl (Access.read_name m.access)]
  rfl

-- ============================================================ declarations

/-- Classes and interfaces are told apart by their names for the kind. -/
theorem EntityKind.read_name (k : EntityKind) :
    readNamed EntityKind.name EntityKind.all (.str k.name) = .ok k := by
  cases k <;> rfl

/-- A class or interface is read back with its members, in order. -/
theorem Entity.read_toJson (e : Entity) : Entity.read e.toJson = .ok e := by
  unfold Entity.read Entity.toJson recordFields Checked.bind
  simp only
  rw [field_of_lookup (a := e.name) rfl rfl,
    fieldOr_of_lookup rfl (EntityKind.read_name e.kind),
    fieldOr_of_lookup rfl (readList_map Attribute.read_toJson e.attributes),
    fieldOr_of_lookup rfl (readList_map Method.read_toJson e.methods)]
  rfl

/-- An enum is read back with its values, in order. -/
theorem Enumeration.read_toJson (e : Enumeration) :
    Enumeration.read e.toJson = .ok e := by
  unfold Enumeration.read Enumeration.toJson recordFields Checked.bind
  simp only
  rw [field_of_lookup (a := e.name) rfl rfl,
    fieldOr_of_lookup (a := e.values) rfl
      (readList_map (f := Json.str) (fun _ => rfl) e.values)]
  rfl

-- =============================================================== relations

/-- The kind of a multiplicity is read back from its name. -/
theorem CardinalityKind.read_name (k : CardinalityKind) :
    readNamed CardinalityKind.name CardinalityKind.all (.str k.name)
      = .ok k := by
  cases k <;> rfl

/-- A multiplicity is read back from its record. -/
theorem Cardinality.read_toJson (c : Cardinality) :
    Cardinality.read c.toJson = .ok c := by
  unfold Cardinality.read Cardinality.toJson recordFields Checked.bind
  simp only
  rw [field_of_lookup rfl (CardinalityKind.read_name c.kind),
    field_of_lookup (a := c.raw) rfl rfl,
    fieldOr_of_lookup rfl (readInteger_orNull c.value),
    fieldOr_of_lookup rfl (readInteger_orNull c.lower),
    fieldOr_of_lookup rfl (readInteger_orNull c.upper),
    fieldOr_of_lookup rfl (readText_orNull c.label)]
  rfl

/-- A multiplicity that may be missing is read back. -/
theorem Cardinality.read_orNull (o : Option Cardinality) :
    readNullable Cardinality.read (Json.orNull Cardinality.toJson o) = .ok o :=
  readNullable_orNull Cardinality.read_toJson (fun _ h => by cases h) o

/-- The kind of a relation is read back from its name. -/
theorem RelationKind.read_name (k : RelationKind) :
    readNamed RelationKind.name RelationKind.all (.str k.name) = .ok k := by
  cases k <;> rfl

/-- A relation is read back; the multiplicity shown a second time is passed over. -/
theorem Relation.read_toJson (r : Relation) :
    Relation.read r.toJson = .ok r := by
  unfold Relation.read Relation.toJson recordFields Checked.bind
  simp only
  rw [field_of_lookup (a := r.source) rfl rfl,
    field_of_lookup (a := r.target) rfl rfl,
    field_of_lookup rfl (RelationKind.read_name r.kind),
    fieldOr_of_lookup (a := r.symbol) rfl rfl,
    fieldOr_of_lookup rfl (Cardinality.read_orNull r.fromCardinality),
    fieldOr_of_lookup rfl (Cardinality.read_orNull r.toCardinality)]
  rfl

-- ================================================================ diagrams

/-- A diagram is read back from its export, whatever its names, types,
counts and labels are. -/
theorem Diagram.read_toJson (d : Diagram) : Diagram.read d.toJson = .ok d := by
  unfold Diagram.read Diagram.toJson recordFields Checked.bind
  simp only
  rw [fieldOr_of_lookup rfl (readList_map Entity.read_toJson d.classes),
    fieldOr_of_lookup rfl (readList_map Entity.read_toJson d.interfaces),
    fieldOr_of_lookup rfl (readList_map Enumeration.read_toJson d.enums),
    fieldOr_of_lookup rfl (readList_map Relation.read_toJson d.relations)]
  rfl

/-- What is read from the export of a parsed diagram is that diagram, and
the document made of it is the document of the text, for every `info`
block. -/
theorem document_of_export {text : String} {d : Diagram}
    (h : Diagram.parse text = .ok d) :
    ∃ again, Diagram.read d.toJson = .ok again ∧ again = d
      ∧ ∀ info, Document.ofText info text
          = .ok (Document.ofDiagram info again) := by
  refine ⟨d, d.read_toJson, rfl, fun info => ?_⟩
  exact Document.ofText_eq_ok.mpr ⟨d, h, rfl⟩

/-- A member without a type, a value with a quote and a multiplicity that
is open above. -/
def openRangeText : String :=
  "class A \x7b\n-x\n+go(): B\n\x7d\nenum E \x7b\na\"b\n\x7d\n"
    ++ "A \"1..*\" --> \"some\" B\n"

/-- A range without an upper bound is exported with a missing count and read back. -/
theorem document_of_export_of_open_range :
    ∃ d, Diagram.parse openRangeText = .ok d
      ∧ ∃ again, Diagram.read d.toJson = .ok again ∧ again = d
        ∧ ∀ info, Document.ofText info openRangeText
            = .ok (Document.ofDiagram info again) := by
  have hparse : Diagram.parse openRangeText = .ok {
      classes := [{
        name := "A", attributes := [⟨"x", none, .priv⟩],
        methods := [⟨"go", some "B", .pub⟩] }]
      enums := [⟨"E", ["a\"b"]⟩]
      relations := [⟨"A", "B", .association, "-->",
        some ⟨.range, "1..*", none, some 1, none, none⟩,
        some ⟨.custom, "some", none, none, none, some "some"⟩⟩] } := by
    decide +kernel
  exact ⟨_, hparse, document_of_export hparse⟩

end ApiScaffold
