/-
The arguments of the command line. Options may stand before and after the
plain arguments, up to a double hyphen; a short option may hold its value
in the same word, a long one after an equals sign, and of an option that
is repeated the last counts.
-/

namespace ApiScaffold

/-- A command. -/
inductive Command where
  | transform (source format : String) (output : Option String) (validate : Bool)
  | parse (source : String)
  | samples (folder : Option String)
deriving Inhabited, Repr, DecidableEq

/-- What arguments may be other than a command. -/
inductive NoCommand where
  /-- The arguments ask for help. -/
  | help
  /-- There are no arguments, which shows the help as well. -/
  | nothing
  /-- The arguments make no sense. -/
  | misuse
deriving Inhabited, Repr, DecidableEq

-- ============================================================== options

/-- An option of a command. -/
structure OptionSpec where
  long : String
  short : Option Char := none
  /-- Whether the option takes a value. -/
  valued : Bool := true
deriving Inhabited, Repr, DecidableEq

/-- Arguments sorted into plain ones and options with their values. -/
structure SortedArguments where
  plain : List String := []
  options : List (String × String) := []
deriving Inhabited, Repr, DecidableEq

namespace SortedArguments

/-- Put a plain argument in front. -/
def withPlain (argument : String) (s : SortedArguments) : SortedArguments :=
  { s with plain := argument :: s.plain }

/-- Put an option in front. -/
def withOption (name value : String) (s : SortedArguments) : SortedArguments :=
  { s with options := (name, value) :: s.options }

/-- The value that an option has in the end. -/
def value? (s : SortedArguments) (name : String) : Option String :=
  s.options.reverse.lookup name

/-- Whether an option was given. -/
def isGiven (s : SortedArguments) (name : String) : Bool := (s.value? name).isSome

end SortedArguments

/-- What a word of short options says: options without value that are
given, and the option that takes a value, with what of it the word
holds. -/
def shortOptions? (specs : List OptionSpec) :
    List Char → Option (List String × Option (String × String))
  | [] => some ([], none)
  | c :: cs => match specs.find? fun s => s.short == some c with
    | none => none
    | some spec =>
      if spec.valued then some ([], some (spec.long, String.ofList cs))
      else (shortOptions? specs cs).map fun (flags, valued) => (spec.long :: flags, valued)

/-- Sort arguments by the options of a command; nothing where they do not
fit. -/
def sortArguments? (specs : List OptionSpec) : List String → Option SortedArguments
  | [] => some {}
  | word :: rest => match word.toList with
    | ['-', '-'] => some { plain := rest }
    | '-' :: '-' :: name =>
      let long := String.ofList (name.takeWhile (· ≠ '='))
      let value := (name.dropWhile (· ≠ '=')).drop 1
      match specs.find? fun s => s.long == long, name.contains '=', rest with
      | none, _, _ => none
      | some spec, true, rest =>
        if spec.valued then
          (sortArguments? specs rest).map (·.withOption long (String.ofList value))
        else none
      | some spec, false, [] =>
        if spec.valued then none else some (SortedArguments.withOption long "" {})
      | some spec, false, next :: later =>
        if spec.valued then (sortArguments? specs later).map (·.withOption long next)
        else (sortArguments? specs (next :: later)).map (·.withOption long "")
    | '-' :: c :: cs => match shortOptions? specs (c :: cs), rest with
      | none, _ => none
      | some (flags, none), rest =>
        (sortArguments? specs rest).map fun s =>
          flags.foldr (fun name s => s.withOption name "") s
      | some (flags, some (name, "")), next :: later =>
        (sortArguments? specs later).map fun s =>
          flags.foldr (fun name s => s.withOption name "") (s.withOption name next)
      | some (_, some (_, "")), [] => none
      | some (flags, some (name, value)), rest =>
        (sortArguments? specs rest).map fun s =>
          flags.foldr (fun name s => s.withOption name "") (s.withOption name value)
    | _ => (sortArguments? specs rest).map (·.withPlain word)
termination_by words => words.length

-- ============================================================= commands

/-- The option that every command has. -/
def helpOption : OptionSpec := { long := "help", valued := false }

/-- The options of `transform`. -/
def transformOptions : List OptionSpec :=
  [{ long := "format", short := some 'f' }, { long := "output", short := some 'o' },
   { long := "validate", valued := false }, helpOption]

/-- The options of `fixtures`. -/
def samplesOptions : List OptionSpec :=
  [{ long := "dir", short := some 'd' }, helpOption]

/-- Sort the arguments of a command and make the command of them. -/
def commandOf (specs : List OptionSpec) (make : SortedArguments → Option Command)
    (arguments : List String) : Except NoCommand Command :=
  match sortArguments? specs arguments with
  | none => .error .misuse
  | some sorted =>
    if sorted.isGiven "help" then .error .help
    else match make sorted with
      | some command => .ok command
      | none => .error .misuse

/-- The command of a name and its arguments. -/
def namedCommand (name : String) (arguments : List String) : Except NoCommand Command :=
  if name == "transform" then
    commandOf transformOptions (fun sorted => match sorted.plain with
      | [source] => some (.transform source ((sorted.value? "format").getD "json")
          (sorted.value? "output") (sorted.isGiven "validate"))
      | _ => none) arguments
  else if name == "parse" then
    commandOf [helpOption] (fun sorted => match sorted.plain with
      | [source] => some (.parse source)
      | _ => none) arguments
  else if name == "fixtures" then
    commandOf samplesOptions (fun sorted => match sorted.plain with
      | [] => some (.samples (sorted.value? "dir"))
      | _ => none) arguments
  else .error .misuse

/-- The command of all arguments. -/
def Command.ofArguments : List String → Except NoCommand Command
  | [] => .error .nothing
  | "--help" :: _ => .error .help
  | "--" :: name :: arguments => namedCommand name arguments
  | name :: arguments => namedCommand name arguments

end ApiScaffold
