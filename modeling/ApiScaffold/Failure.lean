/-
Everything that can go wrong, as causes. Errors that a client of the
service may cause carry a detail and a status; the others tell what the
caller or the surroundings did not provide.
-/
import ApiScaffold.Diagram.Cardinality
import ApiScaffold.Files.Tree
import ApiScaffold.Record.Basic
import ApiScaffold.Text.Quoted

namespace ApiScaffold

-- ======================================================== service errors

/-- The kinds of errors that the service reports. -/
inductive ErrorKind where
  | general
  | validation
  | notFound
  | parsing
  | samples
deriving Inhabited, Repr, DecidableEq

/-- The detail of a kind of error where none is given. -/
def ErrorKind.detail : ErrorKind → String
  | .general => ""
  | .validation => "Validation error"
  | .notFound => "Resource not found"
  | .parsing => "Parsing error"
  | .samples => "Unable to load PlantUML fixtures"

/-- The status of a kind of error. -/
def ErrorKind.status : ErrorKind → Int
  | .general => 500
  | .validation => 422
  | .notFound => 404
  | .parsing => 400
  | .samples => 500

/-- An error that the service reports. -/
structure ServiceError where
  kind : ErrorKind
  detail : String := kind.detail
  status : Int := kind.status
deriving Inhabited, Repr, DecidableEq

-- ============================================================== messages

/-- Why arguments cannot be put into a message. -/
inductive MessageFault where
  | tooFewArguments
  | tooManyArguments
  /-- An argument is of no kind that the conversion can write. -/
  | wrongArgument
  /-- A conversion asks by name and the arguments have none. -/
  | noNames
  | unknownName
  | unclosedName
  /-- The message ends in the middle of a conversion. -/
  | incomplete
  | unknownLetter (c : Char) (position : Nat)
  | widthTooBig
  | precisionTooBig
  /-- The message would be larger than any memory. -/
  | noRoom
  /-- An argument that gives a width or precision is no integer. -/
  | amountNotInteger
  /-- What is not a number is to be written as an integer. -/
  | notANumber
  /-- A number is beyond what can be written. -/
  | outOfRange
deriving Inhabited, Repr, DecidableEq

/-- The wording of the faults that have one. -/
def MessageFault.message? : MessageFault → Option String
  | .unclosedName => some "incomplete format key"
  | .incomplete => some "incomplete format"
  | .unknownLetter c position =>
    let shown := if 31 ≤ c.toNat && c.toNat ≤ 126 then c else '?'
    some ("unsupported format character '" ++ shown.toString ++ "' (0x"
      ++ String.ofList (hexDigits 1 c.toNat) ++ ") at index " ++ toString position)
  | .widthTooBig => some "width too big"
  | .precisionTooBig => some "precision too big"
  | .notANumber => some "cannot convert float NaN to integer"
  | _ => none

-- ============================================================== failures

/-- Why an operation fails. -/
inductive Failure where
  | service (e : ServiceError)
  /-- A record has faulty fields. -/
  | invalid (problems : List Problem)
  /-- A numeral of a diagram is too long. -/
  | numeralTooLong (e : NumeralTooLong)
  /-- A builder was asked for its components twice. -/
  | alreadyFinished
  /-- A line was taken for a relation and is none. -/
  | noRelation
  /-- A part of a document that must be an object is none. -/
  | notAnObject
  /-- The component schemas of a document cannot be searched by name. -/
  | notSearchable
  /-- A record has no field of the name. -/
  | noSuchField (record field : String)
  /-- What a record tells about itself cannot be set. -/
  | derivedField
  /-- A word that names a setting of logging is no level. -/
  | unknownLevel (value : String)
  /-- A word that names a table of logging is no level. -/
  | levelNotAWord
  /-- A message and its arguments do not fit. -/
  | message (fault : MessageFault)
  /-- A path cannot be used. -/
  | path (fault : PathFault)
  /-- Marked-up text closes a tag that is not open. -/
  | unmatchedTag
deriving Repr, DecidableEq

namespace Failure

/-- An error for input that is rejected. -/
def rejected (detail : String) : Failure := .service { kind := .validation, detail }

/-- The wording of the failures that have one. -/
def message? : Failure → Option String
  | .service e => some e.detail
  | .numeralTooLong e =>
    some ("Exceeds the limit (" ++ toString numeralLimit
      ++ " digits) for integer string conversion: value has " ++ toString e.digits
      ++ " digits; use sys.set_int_max_str_digits() to increase the limit")
  | .alreadyFinished => some "SchemaBuilder.finalize() called twice"
  | .noSuchField record field =>
    some ("\"" ++ record ++ "\" object has no field \"" ++ field ++ "\"")
  | .unknownLevel value => some ("Unknown level: " ++ quotedText value)
  | .message fault => fault.message?
  | .path .zeroCharacter => some "embedded null byte"
  | _ => none

end Failure

/-- The outcome of an operation that may fail. -/
abbrev Outcome (α : Type) := Except Failure α

/-- What was read, with the problems as a failure. -/
def Checked.outcome {α : Type} : Checked α → Outcome α
  | .ok a => .ok a
  | .error problems => .error (.invalid problems)

/-- A reading of numerals as an outcome. -/
def NumeralTooLong.outcome {α : Type} : Except NumeralTooLong α → Outcome α
  | .ok a => .ok a
  | .error e => .error (.numeralTooLong e)

/-- What a path comes to as an outcome. -/
def PathFault.outcome {α : Type} : Except PathFault α → Outcome α
  | .ok a => .ok a
  | .error fault => .error (.path fault)

end ApiScaffold
