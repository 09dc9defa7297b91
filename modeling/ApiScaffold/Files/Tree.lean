/-
Files and folders. Entries are kept by their places, the ways to them
from the working folder; a folder exists when it has an entry of its own
or when something lies in it. A path is followed part by part, and every
part but the last must lead to a folder.
-/
import ApiScaffold.Files.Path

namespace ApiScaffold

/-- What a path leads to. -/
inductive FileEntry where
  | file (content : ByteArray)
  | folder

/-- Whether an entry is a folder. -/
def FileEntry.isFolder : FileEntry → Bool
  | .file _ => false
  | .folder => true

/-- A place: the names on the way to it from the working folder. Places
that do not lie in it start with `..` or with the slash of a root. -/
abbrev Place := List String

/-- Entries by place, each place once. -/
structure FileTree where
  entries : List (Place × FileEntry)
deriving Inhabited

/-- Why a path cannot be used. -/
inductive PathFault where
  /-- Nothing is there, or a folder on the way does not exist. -/
  | missing
  /-- A file stands on the way. -/
  | notFolder
  /-- A folder is there. -/
  | isFolder
  /-- Something is there already. -/
  | taken
  /-- A name is longer than names can be. -/
  | nameTooLong
  /-- A path holds the character zero. -/
  | zeroCharacter
deriving Inhabited, Repr, DecidableEq

namespace FileTree

-- ============================================================== entries

/-- No files at all. -/
def empty : FileTree := ⟨[]⟩

/-- Write into a list of entries. -/
def putEntryAt (place : Place) (entry : FileEntry) :
    List (Place × FileEntry) → List (Place × FileEntry)
  | [] => [(place, entry)]
  | (p, e) :: rest =>
    if p = place then (place, entry) :: rest else (p, e) :: putEntryAt place entry rest

/-- Put an entry at a place. -/
def put (t : FileTree) (place : Place) (entry : FileEntry) : FileTree :=
  ⟨putEntryAt place entry t.entries⟩

/-- Take away what is at a place. -/
def erase (t : FileTree) (place : Place) : FileTree :=
  ⟨t.entries.filter fun (p, _) => p ≠ place⟩

/-- The content of the file at a place. -/
def file? (t : FileTree) (place : Place) : Option ByteArray :=
  match t.entries.lookup place with
  | some (.file content) => some content
  | _ => none

/-- Whether a place is the working folder, a folder around it or a
root. -/
def isAround (place : Place) : Bool :=
  place.all (· == "..") || place == ["/"]

/-- Whether a folder is at a place. -/
def isFolder (t : FileTree) (place : Place) : Bool :=
  isAround place || t.entries.any fun (p, e) =>
    if p = place then e.isFolder else place.isPrefixOf p

/-- The names and contents of the files directly in a folder. -/
def filesIn (t : FileTree) (folder : Place) : List (String × ByteArray) :=
  t.entries.filterMap fun (p, e) => match e, p.getLast? with
    | .file content, some name => if p.dropLast = folder then some (name, content) else none
    | _, _ => none

-- ================================================================ paths

/-- The folder around a place. -/
def outer (place : Place) : Place :=
  if place == ["/"] then place
  else if place.all (· == "..") then ".." :: place
  else place.dropLast

/-- The most bytes that a name may have. -/
def nameLimit : Nat := 255

/-- Follow one part of a path from a place. -/
def follow (t : FileTree) (here : Place) (part : String) : Except PathFault Place :=
  if !t.isFolder here then
    .error (if (t.file? here).isSome then .notFolder else .missing)
  else if part == ".." then .ok (outer here)
  else if nameLimit < part.utf8ByteSize then .error .nameTooLong
  else .ok (here ++ [part])

/-- The place that parts lead to from a place; nothing needs to be there
yet. -/
def locate (t : FileTree) (start : Place) (parts : List String) : Except PathFault Place :=
  if parts.any fun part => part.contains '\x00' then .error .zeroCharacter
  else parts.foldlM t.follow start

/-- Where a path starts. -/
def startOf (p : FilePath) : Place := if p.root.isEmpty then [] else ["/"]

/-- What a path leads to, if something is there. -/
def find (t : FileTree) (p : FilePath) : Except PathFault (Place × FileEntry) := do
  let place ← t.locate (startOf p) p.parts
  if t.isFolder place then return (place, .folder)
  else match t.file? place with
    | some content => return (place, .file content)
    | none => throw .missing

/-- What a question about a path comes to when the path leads nowhere. -/
def ifFound (found : Except PathFault Bool) : Except PathFault Bool :=
  match found with
  | .error .nameTooLong => .error .nameTooLong
  | .error _ => .ok false
  | .ok b => .ok b

/-- Whether a folder is at a path. -/
def hasFolder (t : FileTree) (p : FilePath) : Except PathFault Bool :=
  ifFound ((t.find p).map fun (_, e) => e.isFolder)

/-- The content of the file at a path, if one is there. -/
def read? (t : FileTree) (p : FilePath) : Except PathFault (Option ByteArray) :=
  match t.find p with
  | .ok (_, .file content) => .ok (some content)
  | .error .nameTooLong => .error .nameTooLong
  | _ => .ok none

/-- The names and contents of the files directly in the folder at a
path. -/
def list (t : FileTree) (p : FilePath) : Except PathFault (List (String × ByteArray)) := do
  match ← t.find p with
  | (place, .folder) => return t.filesIn place
  | (_, .file _) => throw .notFolder

end FileTree

-- ============================================================== changes

/-- A change of files; what it did before it failed stays done. -/
abbrev Change (α : Type) := ExceptT PathFault (StateM FileTree) α

namespace Change

/-- The place that parts lead to. -/
def locate (start : Place) (parts : List String) : Change Place := do
  match (← get).locate start parts with
  | .ok place => return place
  | .error fault => throw fault

/-- Whether the last part of a path names an entry, rather than a folder
around another. -/
def isName (parts : List String) : Bool :=
  match parts.getLast? with
  | none => false
  | some part => part != ".."

/-- Make a folder in a folder that exists. -/
def makeFolder (start : Place) (parts : List String) : Change Unit := do
  let place ← locate start parts
  let t ← get
  if !isName parts || t.isFolder place || (t.file? place).isSome then throw .taken
  else set (t.put place .folder)

/-- Let a fault pass if a folder is at the path all the same. -/
def unlessFolder (start : Place) (parts : List String) (fault : PathFault) :
    Change Unit := do
  let t ← get
  match t.locate start parts with
  | .ok place => if t.isFolder place then return () else throw fault
  | .error _ => throw fault

/-- Make a folder and the folders on the way to it, as far as they do not
exist; `reversed` holds the parts of the path, last first. -/
def makeFoldersFrom (start : Place) (reversed : List String) : Change Unit :=
  tryCatch (makeFolder start reversed.reverse) fun
    | .missing => match reversed with
      | [] => throw .missing
      | _ :: onTheWay => do
        makeFoldersFrom start onTheWay
        tryCatch (makeFolder start reversed.reverse) fun
          | .missing => throw .missing
          | fault => unlessFolder start reversed.reverse fault
    | .zeroCharacter => throw .zeroCharacter
    | fault => unlessFolder start reversed.reverse fault

/-- Make a folder and the folders on the way to it. -/
def makeFolders (start : Place) (parts : List String) : Change Unit :=
  makeFoldersFrom start parts.reverse

/-- Write a file in a folder that exists. -/
def writeFile (start : Place) (parts : List String) (content : ByteArray) :
    Change Unit := do
  let place ← locate start parts
  let t ← get
  if !isName parts || t.isFolder place then throw .isFolder
  else set (t.put place (.file content))

/-- Take a file away. -/
def removeFile (start : Place) (parts : List String) : Change Unit := do
  let place ← locate start parts
  let t ← get
  if !isName parts || t.isFolder place then throw .isFolder
  else if (t.file? place).isSome then set (t.erase place)
  else throw .missing

/-- Put an entry at a path, with the folders on the way to it. -/
def save (start : Place) (parts : List String) : FileEntry → Change Unit
  | .folder => makeFolders start parts
  | .file content => do
    makeFolders start parts.dropLast
    writeFile start parts content

/-- Put entries at the paths that texts denote. -/
def saveAll (start : Place) (entries : List (String × FileEntry)) : Change Unit :=
  entries.forM fun (name, entry) => save start (FilePath.partsOf name.toList) entry

/-- Change files; the files afterwards, and why the change failed. -/
def apply (change : Change Unit) (t : FileTree) : FileTree × Except PathFault Unit :=
  let (result, after) := (ExceptT.run change).run t
  (after, result)

end Change

/-- A file's content as text: UTF-8 with line endings made uniform. -/
def decodeText? (content : ByteArray) : Option String :=
  (String.fromUTF8? content).map unifyBreaksText

end ApiScaffold
