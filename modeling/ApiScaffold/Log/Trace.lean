/-
The notices of each stage of a run, in the order in which the stages come
upon what they tell of. They are read off the same definitions that do
the work, and nothing depends on them.
-/
import ApiScaffold.Api.Document
import ApiScaffold.Log.Notice

namespace ApiScaffold

-- ============================================================== reading

/-- The notices of the marks left by a walk; `start` is the offset at
which the present block starts, and `unterminated` whether the text ends
inside it. -/
def markNotices (unterminated : Bool) (start : Nat) : List (Nat × Mark) → List Notice
  | [] => if unterminated then [.blockUnterminated start] else []
  | (offset, .opened) :: rest => markNotices unterminated (offset + 1) rest
  | (offset, .reopened) :: rest =>
    .blockReopened offset :: markNotices unterminated (offset + 1) rest
  | (_, .closed _) :: rest => markNotices unterminated start rest
  | (_, .discarded) :: rest => .blockSkipped start :: markNotices unterminated start rest

/-- The notices about the blocks of a normalised text. -/
def blockNotices (text : List Char) : List Notice :=
  let (zone, marks) := scanText text
  markNotices (!zone.isOutside) 0 marks

/-- The notices about the members of a block. -/
def memberNotices (b : Block) : List Notice :=
  if b.keyword == .enumBlock then []
  else (droppedLines b.body).map fun line => .memberDropped (String.ofList line)

/-- The notice that sums up a diagram. -/
def Diagram.parsedNotice (d : Diagram) : Notice :=
  .diagramParsed d.classes.length d.interfaces.length d.enums.length d.relations.length

/-- The notices of reading a text, which end early where reading
fails. -/
def Diagram.readingNotices (text : String) (result : Except NumeralTooLong Diagram) :
    List Notice :=
  let s := normalize text.toList
  blockNotices s ++ (blocksIn s).flatMap memberNotices
    ++ (namelessLines (lines s)).map (fun line => .relationDropped (String.ofList line))
    ++ match result with
      | .ok d => [d.parsedNotice]
      | .error _ => []

-- ============================================================= building

/-- The notice about a relation that has no effect because an end is not
declared. -/
def Diagram.skipNotice? (d : Diagram) (r : Relation) : Option Notice :=
  if r.kind == .inheritance then
    if d.givesParent r || r.target == r.source then none
    else some (.inheritanceSkipped r.source r.target)
  else if r.kind.isStructural && !d.givesProperty r then
    some (.relationSkipped r.kind r.source r.target)
  else none

/-- The notices of turning a diagram into a document. -/
def Document.buildingNotices (d : Diagram) (doc : Document) : List Notice :=
  d.relations.filterMap d.skipNotice?
    ++ [.documentAssembled doc.paths.entries.length doc.components.entries.length]

end ApiScaffold
