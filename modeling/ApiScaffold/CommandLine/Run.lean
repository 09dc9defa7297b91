/-
Running commands. A command is run over the files that it may read, the
standard input and the environment, and the run says what is printed,
which file is written and how the program ends.
-/
import ApiScaffold.Api.Transform
import ApiScaffold.CommandLine.Arguments
import ApiScaffold.Diagram.Export
import ApiScaffold.Log.Record
import ApiScaffold.Sample.Library
import ApiScaffold.Terminal.Layout
import ApiScaffold.Terminal.Markup
import ApiScaffold.Terminal.Table

namespace ApiScaffold

-- ================================================================= runs

/-- Something on the error output. -/
inductive Report where
  | line (text : String)
  | record (r : LogRecord)
  /-- How the program is used. -/
  | usage
deriving Inhabited, Repr, DecidableEq

/-- Something on the output. -/
inductive Output where
  | text (content : String)
  /-- How the program is used. -/
  | usage
deriving Inhabited, Repr, DecidableEq

/-- What a run does. -/
structure Run where
  status : Nat := 0
  output : List Output := []
  reports : List Report := []
  /-- The file that is written and its content. -/
  written : Option (FilePath × String) := none
  /-- What ends the run before its end. -/
  failure : Option Failure := none
deriving Inhabited

/-- How a run ends before its end. -/
inductive Exit where
  /-- The run ends with a status. -/
  | status (code : Nat)
  /-- Something goes wrong that no command deals with. -/
  | failure (f : Failure)
deriving Repr, DecidableEq

/-- Steps of a run: they add to it, and may end it. -/
abbrev Steps (α : Type) := ExceptT Exit (StateM Run) α

namespace Steps

/-- Go on with an outcome; failures end the run. -/
def ofOutcome {α : Type} : Outcome α → Steps α
  | .ok a => pure a
  | .error f => throw (.failure f)

/-- Add to the error output. -/
def report (r : Report) : Steps Unit :=
  modify fun run => { run with reports := run.reports ++ [r] }

/-- Print to the output. -/
def print (text : String) : Steps Unit :=
  modify fun run => { run with output := run.output ++ [.text text] }

/-- The lines that marked-up text takes on the terminal. -/
def shownLines (text : String) : Steps (List String) := do
  let cs ← ofOutcome (Markup.shown text)
  return (layOutOnTerminal cs).map String.ofList

/-- Report marked-up text after a heading without tags. -/
def tell (heading text : String) : Steps Unit := do
  let lines ← shownLines (heading ++ ": " ++ text)
  lines.forM fun line => report (.line line)

/-- Report an error and end the run with status 1, or what is given. -/
def refuse {α : Type} (text : String) (code : Nat := 1) : Steps α := do
  tell "Error" text
  throw (.status code)

/-- Go on with an outcome; errors of the service are told and end the run
with status 1. -/
def orRefuse {α : Type} : Outcome α → Steps α
  | .ok a => pure a
  | .error (.service e) => refuse e.detail
  | .error f => throw (.failure f)

/-- The run of steps. -/
def run (steps : Steps Unit) : Run :=
  match (ExceptT.run steps).run {} with
  | (.ok (), run) => run
  | (.error (.status code), run) => { run with status := code }
  | (.error (.failure f), run) => { run with status := 1, failure := some f }

end Steps

-- ============================================================ what it needs

/-- What a command has to do with. -/
structure Surroundings where
  environment : List (String × String)
  files : FileTree
  /-- The standard input. -/
  input : String
deriving Inhabited

namespace Surroundings

/-- Read the settings. -/
def settings (s : Surroundings) : Steps Settings :=
  Steps.ofOutcome (Settings.read { environment := s.environment }).outcome

/-- Read the text of a diagram: from the input for a single hyphen, and
from a file otherwise. -/
def readSource (s : Surroundings) (source : String) : Steps String :=
  if source == "-" then pure (unifyBreaksText s.input)
  else do
    match ← Steps.ofOutcome (PathFault.outcome (s.files.read? (.ofText source))) with
    | none => Steps.refuse ("file not found: " ++ source)
    | some content => match decodeText? content with
      | some text => pure text
      | none => Steps.refuse ("Diagram file is not valid UTF-8 text: " ++ source)

/-- Read the text of a diagram that is not too large. -/
def readDiagram (s : Surroundings) (settings : Settings) (source : String) :
    Steps String := do
  let text ← s.readSource source
  Steps.orRefuse (settings.allow text)
  return text

/-- Whether a file can be written at a path. -/
def checkWritable (s : Surroundings) (p : FilePath) (content : String) : Outcome Unit :=
  let writing := Change.writeFile (FileTree.startOf p) p.parts content.toUTF8
  PathFault.outcome (writing.apply s.files).2

end Surroundings

-- ============================================================= commands

/-- Report the notices that reach a rank. -/
def reportNotices (rank : Nat) (notices : List Notice) : Steps Unit :=
  (recordsFrom rank serviceName notices).forM fun r => Steps.report (.record r)

/-- Write the text of a document to a file, or print it. -/
def deliver (s : Surroundings) (output : Option String) (text : String) : Steps Unit :=
  match output with
  | none => Steps.print (text ++ "\n")
  | some name => do
    let p := FilePath.ofText name
    Steps.ofOutcome (s.checkWritable p text)
    modify fun run => { run with written := some (p, text) }
    let lines ← Steps.shownLines ("Wrote " ++ p.text)
    lines.forM fun line => Steps.print (line ++ "\n")

/-- Tell a verdict; the run ends with status 1 if it finds errors. -/
def tellVerdict (v : Verdict) : Steps Unit := do
  v.warnings.forM (Steps.tell "warning")
  v.errors.forM (Steps.tell "invalid")
  if !v.valid then throw (.status 1)

/-- Whether a text can be a path at all. -/
def checkPath (text : String) : Outcome Unit :=
  if text.contains '\x00' then .error (.path .zeroCharacter) else .ok ()

/-- Transform a diagram. -/
def transformCommand (s : Surroundings) (source format : String) (output : Option String)
    (validate : Bool) : Steps Unit := do
  Steps.ofOutcome ((output.map checkPath).getD (.ok ()))
  let settings ← s.settings
  let rank ← Steps.ofOutcome (threshold settings.logLevel)
  let name := lowerText format
  if !OutputFormat.names.contains name then
    Steps.refuse ("unsupported format " ++ quotedText format ++ "; use one of "
      ++ ", ".intercalate OutputFormat.names) 2
  let text ← s.readDiagram settings source
  reportNotices rank (transformNotices settings.info text (some name) validate)
  let answer ← Steps.orRefuse (transform settings.info text (some name) validate)
  deliver s output (answer.rendered.getD "")
  match answer.verdict with
  | some verdict => tellVerdict verdict
  | none => pure ()

/-- Print a diagram as it is read. -/
def parseCommand (s : Surroundings) (source : String) : Steps Unit := do
  let settings ← s.settings
  let rank ← Steps.ofOutcome (threshold settings.logLevel)
  let text ← s.readDiagram settings source
  let result := Diagram.parse text
  reportNotices rank (Diagram.readingNotices text result)
  let d ← Steps.ofOutcome (NumeralTooLong.outcome result)
  Steps.print (d.toJson.indented ++ "\n")

/-- The heading of the table of samples. -/
def samplesHeading : List TableColumn :=
  [⟨"ID".toList, .left⟩, ⟨"Label".toList, .left⟩, ⟨"File".toList, .left⟩,
   ⟨"Lines".toList, .right⟩]

/-- The row of a sample. -/
def sampleRow (s : Sample) : Outcome (List (List Char)) := do
  let id ← Markup.shown s.id
  let label ← Markup.shown s.label
  let fileName ← Markup.shown s.fileName
  return [id, label, fileName, decimal (countLines s.content)]

/-- List the samples. -/
def samplesCommand (s : Surroundings) (folder : Option String) : Steps Unit := do
  let folder ← match folder with
    | some folder => pure folder
    | none => (fun settings => settings.samplesFolder) <$> s.settings
  let samples ← Steps.orRefuse (s.files.samples (.ofText folder))
  let rows ← Steps.ofOutcome (samples.mapM sampleRow)
  let table : Table := ⟨"PlantUML fixtures".toList, samplesHeading, rows⟩
  table.lines.forM fun line => Steps.print (String.ofList line ++ "\n")

/-- Run a command. -/
def Command.run (s : Surroundings) : Command → Run
  | .transform source format output validate =>
    (transformCommand s source format output validate).run
  | .parse source => (parseCommand s source).run
  | .samples folder => (samplesCommand s folder).run

/-- Run what the arguments ask for. -/
def runArguments (s : Surroundings) (arguments : List String) : Run :=
  match Command.ofArguments arguments with
  | .ok command => command.run s
  | .error .help => { output := [.usage] }
  | .error .nothing => { status := 2, output := [.usage] }
  | .error .misuse => { status := 2, reports := [.usage] }

end ApiScaffold
