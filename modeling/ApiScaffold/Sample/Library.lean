/-
The library of samples: the sample files directly in one folder, in the
order of their names. A single file that is no text makes the whole
library unreadable.
-/
import ApiScaffold.Failure
import ApiScaffold.Sample.Basic

namespace ApiScaffold

/-- The samples in files that are given by identifier, name and content,
if all of them are texts. -/
def samplesOf? : List (String × String × ByteArray) → Option (List Sample)
  | [] => some []
  | (id, name, content) :: rest =>
    match Sample.ofFile? id name content, samplesOf? rest with
    | some s, some more => some (s :: more)
    | _, _ => none

/-- The sample files among files, in the order of their names, each with
its identifier. -/
def sampleFiles (files : List (String × ByteArray)) :
    List (String × String × ByteArray) :=
  let found := files.filterMap fun (name, content) =>
    (withoutEnding? name).map fun id => (id, name, content)
  found.mergeSort fun a b => a.2.1 ≤ b.2.1

/-- The error for a library that cannot be read. -/
def unreadable : Failure := .service { kind := .samples }

/-- The samples in the folder at a path. -/
def FileTree.samples (t : FileTree) (folder : FilePath) : Outcome (List Sample) :=
  match t.list folder with
  | .error .zeroCharacter => .error (.path .zeroCharacter)
  | .error _ => .error unreadable
  | .ok files => match samplesOf? (sampleFiles files) with
    | some samples => .ok samples
    | none => .error unreadable

/-- The sample with an identifier. -/
def FileTree.sample (t : FileTree) (folder : FilePath) (id : String) : Outcome Sample :=
  (t.samples folder).bind fun samples =>
    match samples.find? fun s => s.id == id with
    | some s => .ok s
    | none => .error (.service
        { kind := .notFound, detail := "Fixture not found: " ++ id })

/-- Whether there is a library at a path. -/
def FileTree.hasLibrary (t : FileTree) (folder : FilePath) : Outcome Bool :=
  PathFault.outcome (t.hasFolder folder)

end ApiScaffold
