/-
The command line program. It gathers what a command has to do with, runs
the command and carries out what the run says.
-/
import ApiScaffold.CommandLine.Run
import Std.Time.Format

namespace ApiScaffold

/-- Put what is at a path into a tree. -/
def loadEntry (t : FileTree) (p : FilePath) : IO FileTree := do
  try
    let found ← IO.FS.realPath p.text
    if ← found.isDir then return t.put p.way .folder
    else return t.put p.way (.file (← IO.FS.readBinFile found))
  catch _ => return t

/-- Put what is at a path and on the way to it into a tree. -/
def loadPath (t : FileTree) (p : FilePath) : IO FileTree :=
  (List.range (p.parts.length + 1)).foldlM
    (fun tree n => loadEntry tree { p with parts := p.parts.take n }) t

/-- Put a folder and the files directly in it into a tree. -/
def loadFolder (t : FileTree) (p : FilePath) : IO FileTree := do
  let mut tree ← loadPath t p
  try
    let found ← IO.FS.realPath p.text
    for entry in ← found.readDir do
      tree ← loadEntry tree { p with parts := p.parts ++ [entry.fileName] }
  catch _ => pure ()
  return tree

/-- The variables of the environment that are settings. -/
def loadEnvironment : IO (List (String × String)) := do
  let names := ["log_level", "fixtures_dir", "api_title", "api_version",
    "api_description", "max_diagram_bytes"]
  let found ← (names ++ names.map Settings.variableName).mapM fun name => do
    return (← IO.getEnv name).map fun value => (name, value)
  return found.filterMap id

/-- The files that a command has to do with. -/
def loadFiles (environment : List (String × String)) : Command → IO FileTree
  | .transform source _ output _ => do
    let tree ← loadPath .empty (.ofText source)
    match output with
    | some name => loadPath tree (.ofText name)
    | none => return tree
  | .parse source => loadPath .empty (.ofText source)
  | .samples (some folder) => loadFolder .empty (.ofText folder)
  | .samples none => match Settings.read { environment } with
    | .ok settings => loadFolder .empty (.ofText settings.samplesFolder)
    | .error _ => return .empty

/-- Whether a command reads the standard input. -/
def Command.readsInput : Command → Bool
  | .transform source .. | .parse source => source == "-"
  | .samples _ => false

/-- How the program is used. -/
def usage : String :=
  "Usage: uml-openapi transform SOURCE [-f FORMAT] [-o OUTPUT] [--validate]\n"
    ++ "       uml-openapi parse SOURCE\n"
    ++ "       uml-openapi fixtures [-d DIRECTORY]"

/-- Carry out a run. -/
def Run.perform (run : Run) : IO UInt32 := do
  let time := (← Std.Time.DateTime.now).toISO8601String
  for output in run.output do
    match output with
    | .text content => IO.print content
    | .usage => IO.println usage
  for report in run.reports do
    match report with
    | .line text => IO.eprintln text
    | .record r => IO.eprintln (r.line time)
    | .usage => IO.eprintln usage
  match run.written with
  | some (path, text) => IO.FS.writeFile path.text text
  | none => pure ()
  match run.failure with
  | some failure => IO.eprintln (failure.message?.getD "The program cannot go on.")
  | none => pure ()
  return run.status.toUInt32

end ApiScaffold

open ApiScaffold in
/-- Run the program. -/
def main (arguments : List String) : IO UInt32 := do
  let environment ← loadEnvironment
  let surroundings : Surroundings ← match Command.ofArguments arguments with
    | .ok command => do
      let files ← loadFiles environment command
      let input ← if command.readsInput then (← IO.getStdin).readToEnd else pure ""
      pure { environment, files, input }
    | .error _ => pure { environment, files := .empty, input := "" }
  (runArguments surroundings arguments).perform
