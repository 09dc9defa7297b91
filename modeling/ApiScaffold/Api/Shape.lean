/-
Shapes: what the values of a document must look like. A shape asks for a
text, perhaps of a pattern, for a list, for a schema, or for an object
with certain fields. The faults of an object come in the order of its
shape and not of its text: first those of the declared fields, as
declared, then those of the other fields, of the keys inside the fields,
and last those of the object as a whole.
-/
import ApiScaffold.Json.Inline
import ApiScaffold.Text.Pattern
import ApiScaffold.Text.Word

namespace ApiScaffold

-- =============================================================== faults

/-- What is wrong with a value of a document. -/
inductive ShapeFault where
  | lacks (key : String)
  | matchesNone (value : Json)
  | wrongType (value : Json) (types : List String)
  | noMatch (text pattern : String)
  | unexpected (keys : List String)
deriving Inhabited, Repr

/-- The wording of a fault. -/
def ShapeFault.message : ShapeFault → String
  | .lacks key => quotedText key ++ " is a required property"
  | .matchesNone value =>
    value.inline ++ " is not valid under any of the given schemas"
  | .wrongType value types =>
    value.inline ++ " is not of type " ++ ", ".intercalate (types.map quotedText)
  | .noMatch text pattern =>
    quotedText text ++ " does not match " ++ quotedText pattern
  | .unexpected keys =>
    "Unevaluated properties are not allowed ("
      ++ ", ".intercalate (keys.map quotedText)
      ++ (match keys with
          | [_] => " was"
          | _ => " were")
      ++ " unexpected)"

/-- A fault of the value at a path. -/
structure PlacedFault where
  fault : ShapeFault
  path : List String
deriving Inhabited, Repr

/-- The wording of a fault, with its place. The whole document has none. -/
def PlacedFault.message (f : PlacedFault) : String :=
  let place := " -> ".intercalate f.path
  if place.isEmpty then f.fault.message
  else f.fault.message ++ " (at " ++ place ++ ")"

-- =============================================================== shapes

/-- A pattern with its text; a match may leave one line break over. -/
structure TextRule where
  text : String
  pattern : Pattern

/-- Whether a text obeys a rule. -/
def TextRule.holds (rule : TextRule) (s : String) : Bool :=
  (Pattern.seq rule.pattern (.optional (.char '\n'))).accepts s.toList

/-- What an object asks for besides the shapes of its declared fields. -/
structure FieldDemands where
  required : List String := []
  /-- At least one of these must be there, if there are any. -/
  oneOf : List String := []
  /-- The rule for the keys of the objects under the declared fields. -/
  innerKeys : Option TextRule := none

/-- What a value must look like. -/
inductive Shape where
  | any
  | text (rule : Option TextRule)
  | list
  /-- A schema: an object or a boolean. -/
  | schema
  /-- An object with the declared fields and others; a key to which
  `other` gives no shape is unexpected. -/
  | object (declared : List (String × Shape)) (other : String → Option Shape)
    (demands : FieldDemands)

namespace Shape

/-- Some object, with values of one shape. -/
def mapOf (value : Shape) : Shape := .object [] (fun _ => some value) {}

/-- The keys of the declared fields. -/
def declaredKeys : Shape → List String
  | .object declared _ _ => declared.map Prod.fst
  | _ => []

/-- The shape of the value of a field, if the field may be there. -/
def field? (shape : Shape) (key : String) : Option Shape :=
  match shape with
  | .object declared other _ => (declared.lookup key).or (other key)
  | _ => some .any

/-- Faults of fields in the order of the shape: those of the declared
fields, as declared, and then the others as they come. -/
def inOrder (shape : Shape) (faults : List (String × List PlacedFault)) :
    List PlacedFault :=
  let keys := shape.declaredKeys
  (keys.filterMap fun key => faults.lookup key).flatten
    ++ (faults.filter fun (key, _) => !keys.contains key).flatMap Prod.snd

/-- The faults of keys inside the declared fields of the object at a path. -/
def innerKeyFaults (keys : List String) (rule : TextRule) (path : List String)
    (entries : List (String × Json)) : List PlacedFault :=
  (entries.filter fun (key, _) => keys.contains key).flatMap fun (key, value) =>
    ((value.fieldsOf.map Prod.fst).filter fun inner => !rule.holds inner).map
      fun inner => ⟨.noMatch inner rule.text, path ++ [key]⟩

/-- The faults of an object that do not lie in a single field. -/
def objectFaults (shape : Shape) (path : List String)
    (entries : List (String × Json)) : List PlacedFault :=
  match shape with
  | .any | .schema => []
  | .text _ => [⟨.wrongType (.obj entries) ["string"], path⟩]
  | .list => [⟨.wrongType (.obj entries) ["array"], path⟩]
  | .object _ _ demands =>
    let keys := entries.map Prod.fst
    let extra := keys.filter fun key => (shape.field? key).isNone
    (match demands.innerKeys with
      | some rule => innerKeyFaults shape.declaredKeys rule path entries
      | none => [])
      ++ (demands.required.filter fun key => !keys.contains key).map
          (⟨.lacks ·, path⟩)
      ++ (if demands.oneOf.isEmpty || demands.oneOf.any keys.contains then []
          else [⟨.matchesNone (.obj entries), path⟩])
      ++ (if extra.isEmpty then []
          else [⟨.unexpected (extra.mergeSort fun a b => a ≤ b), path⟩])

/-- The faults of a value that is no object. -/
def plainFaults (shape : Shape) (j : Json) : List ShapeFault :=
  match shape, j with
  | .any, _ => []
  | .text none, .str _ => []
  | .text (some rule), .str s => if rule.holds s then [] else [.noMatch s rule.text]
  | .text _, j => [.wrongType j ["string"]]
  | .list, .arr _ => []
  | .list, j => [.wrongType j ["array"]]
  | .schema, .bool _ => []
  | .schema, j => [.wrongType j ["object", "boolean"]]
  | .object .., j => [.wrongType j ["object"]]

mutual

/-- The faults of the value at a path. -/
def faults (shape : Shape) (path : List String) : Json → List PlacedFault
  | .obj entries =>
    shape.inOrder (fieldFaults shape.field? path entries)
      ++ shape.objectFaults path entries
  | j => (shape.plainFaults j).map (⟨·, path⟩)

/-- The faults of each field of the object at a path, under its key. -/
def fieldFaults (field? : String → Option Shape) (path : List String) :
    List (String × Json) → List (String × List PlacedFault)
  | [] => []
  | (key, value) :: rest =>
    (key, ((field? key).getD .any).faults (path ++ [key]) value)
      :: fieldFaults field? path rest

end

end Shape

end ApiScaffold
