/-
The verdict on a document. Its references are checked first; only where
nothing is to be said about them is the structure examined, because that
examination follows references.
-/
import ApiScaffold.Api.Reference
import ApiScaffold.Api.Structure

namespace ApiScaffold

/-- What is wrong and what is doubtful about a document. -/
structure Verdict where
  errors : List String
  warnings : List String
deriving Inhabited, Repr, DecidableEq

namespace Verdict

/-- A document is valid when nothing is wrong with it. -/
def valid (v : Verdict) : Bool := v.errors.isEmpty

/-- The JSON form of a verdict. -/
def toJson (v : Verdict) : Json :=
  .obj [("valid", .bool v.valid), ("errors", Json.strings v.errors),
    ("warnings", Json.strings v.warnings)]

end Verdict

/-- The warning that the structure was not examined. -/
def skipWarning : String :=
  "Structural validation skipped because of reference problems"

/-- The verdict on a document, given what examines structures and the faults of
its references. -/
def Json.verdictAfter (examine : Json → List String) (doc : Json) :
    List ReferenceFault → Verdict
  | [] => ⟨examine doc, []⟩
  | faults =>
    let (errors, warnings) := faults.partition ReferenceFault.isError
    ⟨errors.map ReferenceFault.message,
      warnings.map ReferenceFault.message ++ [skipWarning]⟩

/-- The verdict on a document, given what examines structures. -/
def Json.verdictBy (examine : Json → List String) (doc : Json) : Outcome Verdict :=
  doc.referenceFaults.map (doc.verdictAfter examine)

/-- The verdict on a document. -/
def Json.verdict (doc : Json) : Outcome Verdict :=
  doc.verdictBy Json.structureMessages

end ApiScaffold
