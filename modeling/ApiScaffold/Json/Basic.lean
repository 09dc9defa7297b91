/-
JSON values. Numbers keep the difference between integers, of any size,
and doubles; the fields of an object keep their order. Functions over
values recurse over the value together with the lists of its items and
fields.
-/
import ApiScaffold.Data.OrderedMap
import ApiScaffold.Number.Binary64

namespace ApiScaffold

/-- A JSON value. -/
inductive Json where
  | null
  | bool (value : Bool)
  | int (value : Int)
  | float (value : Binary64)
  | str (value : String)
  | arr (items : List Json)
  | obj (fields : List (String × Json))
deriving Inhabited, Repr, BEq

namespace Json

/-- An array of strings. -/
def strings (xs : List String) : Json := .arr (xs.map .str)

/-- A value or `null`. -/
def orNull {α : Type} (f : α → Json) : Option α → Json
  | some a => f a
  | none => .null

/-- The value of a field of an object. -/
def field? : Json → String → Option Json
  | .obj fields, key => fields.lookup key
  | _, _ => none

/-- The fields of an object, none for any other value. -/
def fieldsOf : Json → List (String × Json)
  | .obj fields => fields
  | _ => []

/-- Whether a value is empty or zero-like: null, false, zero, an empty
text, array or object. -/
def isEmptyLike : Json → Bool
  | .null => true
  | .bool b => !b
  | .int n => n == 0
  | .float (.finite _ m _) => m == 0
  | .float _ => false
  | .str s => s.isEmpty
  | .arr items => items.isEmpty
  | .obj fields => fields.isEmpty

mutual

/-- A value with null in the place of every double that has no JSON
form. -/
def finite : Json → Json
  | .float x => match x with
    | .finite .. => .float x
    | _ => .null
  | .arr items => .arr (finiteItems items)
  | .obj fields => .obj (finiteFields fields)
  | j => j

/-- The items of an array, each finite. -/
def finiteItems : List Json → List Json
  | [] => []
  | item :: items => item.finite :: finiteItems items

/-- The fields of an object with finite values. -/
def finiteFields : List (String × Json) → List (String × Json)
  | [] => []
  | (key, value) :: fields => (key, value.finite) :: finiteFields fields

end

end Json

end ApiScaffold
