/-
Records by name. The form of a record says which fields it has, how it
is read, and whether its fields may be replaced afterwards. A replacement
is not read again: it is kept as it is, and only when the record is
written out do doubles without a JSON form become null and values of
numeric fields become doubles.
-/
import ApiScaffold.Failure
import ApiScaffold.Record.Scalar

namespace ApiScaffold

/-- The form of a record. -/
structure RecordForm where
  name : String
  fields : List String
  /-- Whether the fields stay as they are read. -/
  frozen : Bool
  /-- Read a record and give its JSON form, with all fields. -/
  read : Reader Json
  /-- The fields that have another name outside the program. -/
  outsideNames : List (String × String) := []
  /-- The fields whose values are written as doubles. -/
  numericFields : List String := []

-- ========================================================= replacements

/-- What every record tells about itself under names that are no
fields. -/
def derivedNames : List String := ["model_extra", "model_fields_set"]

/-- Whether a name is private: what is kept under it is no part of the
record. -/
def isPrivateName (name : String) : Bool := name.startsWith "_"

namespace RecordForm

/-- Replace a field of a record. -/
def assign (f : RecordForm) (record : Json) (field : String) (value : Json) :
    Outcome Json :=
  if isPrivateName field then .ok record
  else if f.frozen then .error (.invalid [⟨[.key field], .frozen⟩])
  else if derivedNames.contains field then .error .derivedField
  else if f.fields.contains field then
    .ok (.obj (OrderedMap.putEntry field value record.fieldsOf))
  else .error (.noSuchField f.name field)

/-- Replace fields one after another. -/
def assignAll (f : RecordForm) (record : Json) : List (String × Json) → Outcome Json
  | [] => .ok record
  | (field, value) :: rest =>
    (f.assign record field value).bind fun record => f.assignAll record rest

-- ============================================================== writing

/-- A value of a numeric field as it is written: integers and booleans
are doubles, unless they are out of range. -/
def writtenNumber (j : Json) : Json :=
  match j, readNumber j with
  | .str s, _ => .str s
  | _, .ok x => .float x
  | j, .error _ => j

/-- A record as it is written. -/
def written (f : RecordForm) (record : Json) : Json :=
  let fields := record.fieldsOf.map fun (key, value) =>
    (key, if f.numericFields.contains key then writtenNumber value else value)
  (Json.obj fields).finite

/-- A record under the names that its fields have outside. -/
def renamed (f : RecordForm) (record : Json) : Json :=
  .obj (record.fieldsOf.map fun (key, value) =>
    ((f.outsideNames.lookup key).getD key, value))

/-- Read a record, replace fields, and write it. -/
def make (f : RecordForm) (data : Json) (replaced : List (String × Json))
    (outside : Bool) : Outcome Json := do
  let record ← (f.read data).outcome
  let record := f.written (← f.assignAll record replaced)
  return if outside then f.renamed record else record

end RecordForm

end ApiScaffold
