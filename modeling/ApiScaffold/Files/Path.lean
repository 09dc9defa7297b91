/-
Paths of files. Only the parts of a path count: repeated and final
slashes and single dots leave no trace, while `..` is kept, because what
it stands for depends on the folders.
-/
import ApiScaffold.Text.Lines

namespace ApiScaffold

/-- A path. -/
structure FilePath where
  /-- The slashes at the start of an absolute path, nothing otherwise. -/
  root : String
  parts : List String
deriving Inhabited, Repr, DecidableEq

namespace FilePath

/-- The parts of a path's text. -/
def partsOf (text : List Char) : List String :=
  ((pieces '/' text).map String.ofList).filter fun part => part != "" && part != "."

/-- The root of a path's text; two slashes are not the same as one, more
than two are. -/
def rootOf : List Char → String
  | '/' :: '/' :: '/' :: _ => "/"
  | '/' :: '/' :: _ => "//"
  | '/' :: _ => "/"
  | _ => ""

/-- Read a path. -/
def ofText (text : String) : FilePath :=
  ⟨rootOf text.toList, partsOf text.toList⟩

/-- The text of a path. -/
def text (p : FilePath) : String :=
  if p.root.isEmpty && p.parts.isEmpty then "."
  else p.root ++ "/".intercalate p.parts

/-- Parts without the pairs of a part and the `..` after it. `before`
holds the parts so far, last first; nothing lies above a root. -/
def resolveFrom (before : List String) : List String → List String
  | [] => before.reverse
  | part :: rest =>
    if part == ".." then match before with
      | [] => resolveFrom [".."] rest
      | last :: outer =>
        if last == ".." then resolveFrom (".." :: before) rest
        else if outer.isEmpty && last.startsWith "/" then resolveFrom before rest
        else resolveFrom outer rest
    else resolveFrom (part :: before) rest

/-- The way to a path from the working folder, or from a root, which then
is its first part. -/
def way (p : FilePath) : List String :=
  resolveFrom (if p.root.isEmpty then [] else [p.root]) p.parts

end FilePath

end ApiScaffold
