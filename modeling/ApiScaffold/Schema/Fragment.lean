/-
Property schemas: what an attribute or a relation says about the value
of a property. A plain type may carry a format, a reference points at a
component, and an array has items and optional bounds on its length.
-/
import ApiScaffold.Json.Basic

namespace ApiScaffold

/-- The start of every reference to a component schema. -/
def componentRefStart : String := "#/components/schemas/"

/-- The reference to a component schema. -/
def componentRef (name : String) : String := componentRefStart ++ name

theorem componentRef_inj {name name' : String} :
    componentRef name = componentRef name' ↔ name = name' := by
  unfold componentRef
  constructor
  · intro h
    have hchars := congrArg String.toList h
    rw [String.toList_append, String.toList_append] at hchars
    exact String.toList_inj.mp (List.append_cancel_left hchars)
  · intro h
    rw [h]

/-- The schema of one property. -/
inductive Fragment where
  | plain (type : String) (format : Option String)
  | ref (pointer : String)
  | array (items : Fragment) (minItems maxItems : Option Int)
  /-- A schema taken over from elsewhere as it is. -/
  | given (value : Json)
deriving Inhabited, Repr

namespace Fragment

/-- The schema of text without a format. -/
def text : Fragment := .plain "string" none

/-- A reference to a component. -/
def component (name : String) : Fragment := .ref (componentRef name)

/-- A field that stands only where it has a value. -/
def optionalField (key : String) (value : Option Json) : List (String × Json) :=
  (value.map fun j => (key, j)).toList

/-- The JSON form of a property schema. -/
def toJson : Fragment → Json
  | .plain type format =>
    .obj (("type", .str type) :: optionalField "format" (format.map .str))
  | .ref pointer => .obj [("$ref", .str pointer)]
  | .array items minItems maxItems =>
    .obj ([("type", .str "array"), ("items", items.toJson)]
      ++ optionalField "minItems" (minItems.map .int)
      ++ optionalField "maxItems" (maxItems.map .int))
  | .given value => value

end Fragment

end ApiScaffold
