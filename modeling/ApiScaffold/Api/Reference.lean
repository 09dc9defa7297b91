/-
References inside a document. Every string under the key `$ref`, at any
depth, is a reference, found in the order of the document together with
the path of the object that holds it. A reference is in order when it
names a component schema of the same document.
-/
import ApiScaffold.Failure
import ApiScaffold.Schema.Fragment

namespace ApiScaffold

-- ======================================================== finding them

/-- A reference and the path of the object that holds it. -/
structure Reference where
  location : String
  target : String
deriving Inhabited, Repr, DecidableEq

/-- The key that holds a reference. -/
def referenceKey : String := "$ref"

mutual

/-- The references inside a value at `path`. -/
def Json.references (path : String) : Json → List Reference
  | .arr items => referencesInItems path 0 items
  | .obj fields => referencesInFields path fields
  | _ => []

/-- The references inside the items of an array, the first of them at
position `i`. -/
def referencesInItems (path : String) (i : Nat) : List Json → List Reference
  | [] => []
  | item :: items =>
    item.references (path ++ "/" ++ toString i) ++ referencesInItems path (i + 1) items

/-- The references inside the fields of the object at `path`. -/
def referencesInFields (path : String) : List (String × Json) → List Reference
  | [] => []
  | (key, value) :: fields =>
    (match key == referenceKey, value with
      | true, .str target => [⟨path, target⟩]
      | _, value => value.references (path ++ "/" ++ key))
      ++ referencesInFields path fields

end

-- ====================================================== checking them

/-- What is wrong with a reference. -/
inductive ReferenceFault where
  /-- It names a component schema that the document does not have. -/
  | unresolved (r : Reference)
  /-- It does not point at a component schema. -/
  | foreign (r : Reference)
deriving Inhabited, Repr, DecidableEq

namespace ReferenceFault

/-- Whether a fault makes the document invalid. -/
def isError : ReferenceFault → Bool
  | unresolved _ => true
  | foreign _ => false

/-- The wording of a fault. -/
def message : ReferenceFault → String
  | unresolved r =>
    "Unresolved reference " ++ quotedText r.target ++ " (at " ++ r.location ++ ")"
  | foreign r =>
    "Non-component reference " ++ quotedText r.target ++ " (at " ++ r.location ++ ")"

end ReferenceFault

/-- A value that counts as an empty object where it is absent or
empty. -/
def orEmptyObject : Option Json → Json
  | some j => if j.isEmptyLike then .obj [] else j
  | none => .obj []

/-- The component schemas of a document. -/
def Json.componentTable (doc : Json) : Outcome Json :=
  match doc with
  | .obj fields => match orEmptyObject (fields.lookup "components") with
    | .obj components => .ok (orEmptyObject (components.lookup "schemas"))
    | _ => .error .notAnObject
  | _ => .error .notAnObject

/-- Whether part of a text equals a given text. -/
def hasPart (part : List Char) : List Char → Bool
  | [] => part.isEmpty
  | c :: cs => part.isPrefixOf (c :: cs) || hasPart part cs

/-- Whether a table of schemas has a name: as a key, as an item, or as a
part of a text. -/
def isListed (table : Json) (name : String) : Outcome Bool :=
  match table with
  | .obj fields => .ok (fields.lookup name).isSome
  | .arr items => .ok (items.any fun item => match item with
      | .str s => s == name
      | _ => false)
  | .str s => .ok (hasPart name.toList s.toList)
  | _ => .error .notSearchable

/-- The name of the component schema that a reference points at. -/
def Reference.component? (r : Reference) : Option String :=
  if componentRefStart.toList.isPrefixOf r.target.toList then
    some (String.ofList (r.target.toList.drop componentRefStart.length))
  else none

/-- The fault of a reference, if it has one. -/
def Reference.fault? (table : Json) (r : Reference) : Outcome (Option ReferenceFault) :=
  match r.component? with
  | none => .ok (some (.foreign r))
  | some name => (isListed table name).map fun found =>
    if found then none else some (.unresolved r)

/-- The faults of references, in order. -/
def faultsOfReferences (table : Json) : List Reference → Outcome (List ReferenceFault)
  | [] => .ok []
  | r :: rs => (r.fault? table).bind fun fault =>
    (faultsOfReferences table rs).map fun faults => fault.toList ++ faults

/-- The faults of all references of a document. -/
def Json.referenceFaults (doc : Json) : Outcome (List ReferenceFault) :=
  doc.componentTable.bind fun table => faultsOfReferences table (doc.references "#")

end ApiScaffold
