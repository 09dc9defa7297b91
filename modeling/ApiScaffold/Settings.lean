/-
Settings. Every setting has a default, may be set in the environment
under its name in capitals, and may be given directly, which takes
precedence. Names are compared without regard to letter case; one that
is no setting is passed over.
-/
import ApiScaffold.Api.Document
import ApiScaffold.Record.Scalar
import ApiScaffold.Text.Case

namespace ApiScaffold

/-- The settings of the service and of the command line. -/
structure Settings where
  logLevel : String := "info"
  samplesFolder : String := "./fixtures"
  title : String := ({} : Info).title
  version : String := ({} : Info).version
  description : String := ({} : Info).description
  /-- The largest accepted diagram, in bytes of UTF-8. -/
  maxDiagramBytes : Int := 1048576
deriving Inhabited, Repr, DecidableEq

namespace Settings

-- =============================================================== sources

/-- Where settings come from. -/
structure Source where
  /-- The variables of the environment. -/
  environment : List (String × String) := []
  /-- Settings given directly. -/
  given : List (String × Json) := []
deriving Inhabited

/-- The name of a setting in the environment. -/
def variableName (name : String) : String := upperText name

/-- The value of a variable; of several whose names differ in letter case
alone, the last counts. -/
def Source.fromEnvironment? (s : Source) (name : String) : Option Json :=
  (s.environment.reverse.find? fun (key, _) => lowerText key == name).map fun (_, v) =>
    .str v

/-- The value of a setting that is given directly: of several spellings
of its name the capitals come first and the name itself last. -/
def Source.fromGiven? (s : Source) (name : String) : Option Json :=
  match s.given.lookup (variableName name) with
  | some j => some j
  | none => match s.given.find? fun (key, _) => key ≠ name && lowerText key == name with
    | some (_, j) => some j
    | none => s.given.lookup name

/-- The name under which a setting is reported: its own if it is given
under that and not in capitals, otherwise the capitals. -/
def Source.keyOf (s : Source) (name : String) : String :=
  let capitals := variableName name
  if (s.given.lookup capitals).isNone && (s.given.lookup name).isSome then name
  else capitals

/-- The value of a setting. -/
def Source.find? (s : Source) (name : String) : Option Json :=
  match s.fromGiven? name with
  | some j => some j
  | none => s.fromEnvironment? name

/-- Read a setting. -/
def Source.read {α : Type} (s : Source) (name : String) (default : α)
    (reader : Reader α) : Checked α :=
  match s.find? name with
  | some j => (reader j).under (.key (s.keyOf name))
  | none => .ok default

-- =============================================================== reading

/-- Read all settings. -/
def read (s : Source) : Checked Settings :=
  let defaults : Settings := {}
  (((((s.read "log_level" defaults.logLevel readText).map Settings.mk
    |>.app (s.read "fixtures_dir" defaults.samplesFolder readText))
    |>.app (s.read "api_title" defaults.title readText))
    |>.app (s.read "api_version" defaults.version readText))
    |>.app (s.read "api_description" defaults.description readText))
    |>.app (s.read "max_diagram_bytes" defaults.maxDiagramBytes (readAtLeast 1))

/-- Read the one setting that every program has. -/
def readLogLevel (s : Source) : Checked String :=
  s.read "log_level" ({} : Settings).logLevel readText

/-- The JSON form of the settings. -/
def toJson (s : Settings) : Json :=
  .obj [("log_level", .str s.logLevel), ("fixtures_dir", .str s.samplesFolder),
    ("api_title", .str s.title), ("api_version", .str s.version),
    ("api_description", .str s.description),
    ("max_diagram_bytes", .int s.maxDiagramBytes)]

/-- The `info` block that the settings ask for. -/
def info (s : Settings) : Info := ⟨s.title, s.version, s.description⟩

end Settings

end ApiScaffold
