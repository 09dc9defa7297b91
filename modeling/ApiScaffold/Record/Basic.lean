/-
Reading records from JSON values. A reader either returns what it read or
lists every problem it found, each with the path to the value at fault.
Readers of several fields run all of them, so that one faulty field does
not hide the next.
-/
import ApiScaffold.Json.Basic

namespace ApiScaffold

-- ============================================================== problems

/-- One step into a value. -/
inductive PathStep where
  | key (name : String)
  | index (i : Nat)
deriving Inhabited, Repr, DecidableEq

/-- The JSON form of a step. -/
def PathStep.toJson : PathStep → Json
  | .key name => .str name
  | .index i => .int i

/-- What is wrong with a value. -/
inductive Fault where
  | missing
  | notText
  | notInteger
  | integerText
  | integerTooLong
  | fractional
  | notFinite
  | notNumber
  | numberText
  | notBoolean
  | booleanText
  | notList
  | notObject
  | notRecord (name : String)
  | notAttributes
  | notAmong (choices : List String)
  | notLiteral (choices : List String)
  | noMatch (pattern : String)
  | tooSmall (least : Int)
  | frozen
  | malformed
deriving Inhabited, Repr, DecidableEq

/-- The short name of a fault. -/
def Fault.code : Fault → String
  | .missing => "missing"
  | .notText => "string_type"
  | .notInteger => "int_type"
  | .integerText => "int_parsing"
  | .integerTooLong => "int_parsing_size"
  | .fractional => "int_from_float"
  | .notFinite => "finite_number"
  | .notNumber => "float_type"
  | .numberText => "float_parsing"
  | .notBoolean => "bool_type"
  | .booleanText => "bool_parsing"
  | .notList => "list_type"
  | .notObject => "dict_type"
  | .notRecord _ => "model_type"
  | .notAttributes => "model_attributes_type"
  | .notAmong _ => "enum"
  | .notLiteral _ => "literal_error"
  | .noMatch _ => "string_pattern_mismatch"
  | .tooSmall _ => "greater_than_equal"
  | .frozen => "frozen_instance"
  | .malformed => "json_invalid"

/-- Choices in single quotes, joined by commas and a final `or`. -/
def choiceText (choices : List String) : String :=
  let quotedChoices := choices.map fun c => "'" ++ c ++ "'"
  match quotedChoices.reverse with
  | [] => ""
  | [c] => c
  | last :: rest => ", ".intercalate rest.reverse ++ " or " ++ last

/-- The message of a fault. -/
def Fault.message : Fault → String
  | .missing => "Field required"
  | .notText => "Input should be a valid string"
  | .notInteger => "Input should be a valid integer"
  | .integerText =>
    "Input should be a valid integer, unable to parse string as an integer"
  | .integerTooLong =>
    "Unable to parse input string as an integer, exceeded maximum size"
  | .fractional =>
    "Input should be a valid integer, got a number with a fractional part"
  | .notFinite => "Input should be a finite number"
  | .notNumber => "Input should be a valid number"
  | .numberText =>
    "Input should be a valid number, unable to parse string as a number"
  | .notBoolean => "Input should be a valid boolean"
  | .booleanText => "Input should be a valid boolean, unable to interpret input"
  | .notList => "Input should be a valid list"
  | .notObject => "Input should be a valid dictionary"
  | .notRecord name => "Input should be a valid dictionary or instance of " ++ name
  | .notAttributes =>
    "Input should be a valid dictionary or object to extract fields from"
  | .notAmong choices | .notLiteral choices =>
    "Input should be " ++ choiceText choices
  | .noMatch pattern => "String should match pattern '" ++ pattern ++ "'"
  | .tooSmall least => "Input should be greater than or equal to " ++ toString least
  | .frozen => "Instance is frozen"
  | .malformed => "JSON decode error"

/-- A fault with the path to the value. -/
structure Problem where
  path : List PathStep
  fault : Fault
deriving Inhabited, Repr, DecidableEq

/-- The JSON form of a problem. -/
def Problem.toJson (p : Problem) : Json :=
  .obj [("type", .str p.fault.code), ("loc", .arr (p.path.map PathStep.toJson)),
    ("msg", .str p.fault.message)]

-- =============================================================== readers

/-- What reading gives: a value or all problems. -/
inductive Checked (α : Type) where
  | ok (value : α)
  | error (problems : List Problem)
deriving Inhabited, Repr, DecidableEq

/-- A reader of JSON values. -/
abbrev Reader (α : Type) := Json → Checked α

namespace Checked

variable {α β : Type}

/-- A single problem with the value itself. -/
def fail (fault : Fault) : Checked α := .error [⟨[], fault⟩]

/-- Apply a function to what was read. -/
def map (f : α → β) : Checked α → Checked β
  | .ok a => .ok (f a)
  | .error ps => .error ps

/-- Go on with what was read; problems end the reading. -/
def bind : Checked α → (α → Checked β) → Checked β
  | .ok a, f => f a
  | .error ps, _ => .error ps

/-- The problems found below a step. -/
def under (step : PathStep) : Checked α → Checked α
  | .ok a => .ok a
  | .error ps => .error (ps.map fun p => { p with path := step :: p.path })

/-- Apply a checked function to a checked argument, keeping the problems
of both. -/
def app : Checked (α → β) → Checked α → Checked β
  | .ok f, .ok a => .ok (f a)
  | .ok _, .error ps => .error ps
  | .error ps, .ok _ => .error ps
  | .error ps, .error qs => .error (ps ++ qs)

/-- Read the items of a list, the first of them at position `i`. -/
def items (reader : Reader α) (i : Nat) : List Json → Checked (List α)
  | [] => .ok []
  | j :: js => (((reader j).map List.cons).under (.index i)).app (items reader (i + 1) js)

end Checked

-- ================================================================ fields

/-- The fields of an object, as a record named `name`. -/
def recordFields (name : String) : Reader (List (String × Json))
  | .obj fields => .ok fields
  | _ => .fail (.notRecord name)

/-- The fields of an object where any source of named attributes would
do. -/
def attributeFields : Reader (List (String × Json))
  | .obj fields => .ok fields
  | _ => .fail .notAttributes

/-- A field that must be present. -/
def field {α : Type} (fields : List (String × Json)) (name : String)
    (reader : Reader α) : Checked α :=
  match fields.lookup name with
  | some j => (reader j).under (.key name)
  | none => .error [⟨[.key name], .missing⟩]

/-- A field that may be absent. -/
def fieldOr {α : Type} (fields : List (String × Json)) (name : String) (default : α)
    (reader : Reader α) : Checked α :=
  match fields.lookup name with
  | some j => (reader j).under (.key name)
  | none => .ok default

end ApiScaffold
