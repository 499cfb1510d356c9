import HeaderSearch.CommandLine.Reading
import HeaderSearch.Config.Basic

/-!
# Invocations

An invocation is what the arguments of a command line ask for. Where an option is given both before
and after the name of the command, the values after it hold; a switch holds wherever it is given.
-/

namespace HeaderSearch.CommandLine

/-- A command with its own arguments. -/
inductive Command where
  /-- Looks up names. -/
  | resolve (names : List String) (isQuoted : Bool) (includer : Option Path)
      (includerIsSystem : Bool)
  /-- Reports the search list. -/
  | list
  /-- Looks up the directives of a source file. -/
  | deps (source : Path)
deriving DecidableEq, Repr

/-- What a command line asks for. -/
structure Invocation where
  /-- The word for the format of the report. -/
  format : String
  /-- Whether JSON is indented. -/
  isPretty : Bool
  /-- Whether statistics are shown. -/
  showsStats : Bool
  /-- The file with the configuration. -/
  config : Option Path
  /-- The flags that make up a configuration. -/
  flags : Flags
  /-- The command. -/
  command : Command
deriving DecidableEq, Repr

/-- The format of the report if none is asked for. -/
def defaultFormat : String := "jsonl"

/-- What was given before the name of the command and after it. -/
structure Settings where
  /-- The settings before the name. -/
  before : Table Setting (List String)
  /-- The settings after the name. -/
  after : Table Setting (List String)

namespace Settings

/-- The values of a setting: those after the name of the command if there are any. -/
def values (settings : Settings) (setting : Setting) : List String :=
  ((settings.after.get? setting).orElse fun _ => settings.before.get? setting).getD []

/-- The value of a setting that is given once. -/
def value? (settings : Settings) (setting : Setting) : Option String :=
  (settings.values setting).head?

/-- Whether a switch is given. -/
def isOn (settings : Settings) (setting : Setting) : Bool :=
  settings.after.contains setting || settings.before.contains setting

/-- The paths of a setting. -/
def paths (settings : Settings) (setting : Setting) : List Path :=
  (settings.values setting).map Path.mk

/-- The flags that make up a configuration. -/
def flags (settings : Settings) : Flags where
  quote := settings.paths .quote
  angled := settings.paths .angled
  framework := settings.paths .framework
  system := settings.paths .system
  systemFramework := settings.paths .systemFramework
  headerMaps := settings.paths .headerMap
  indexHeaderMaps := settings.paths .indexHeaderMap
  systemFrameworkNames := settings.values .systemFrameworkName

/-- The command with its own arguments, if it has the positional ones that it needs. -/
def command (settings : Settings) : CommandName → Except UsageError Command
  | .resolve =>
    match settings.values .names with
    | [] => .error .missingArgument
    | names => .ok (.resolve names (settings.isOn .quoted)
        ((settings.value? .includer).map Path.mk) (settings.isOn .includerSystem))
  | .list => .ok .list
  | .deps =>
    match settings.value? .source with
    | none => .error .missingArgument
    | some source => .ok (.deps ⟨source⟩)

/-- The invocation of a command. -/
def invocation (settings : Settings) (command : Command) : Invocation where
  format := (settings.value? .format).getD defaultFormat
  isPretty := settings.isOn .pretty
  showsStats := settings.isOn .stats
  config := (settings.value? .config).map Path.mk
  flags := settings.flags
  command

end Settings

/-- The answer to a request for help about the command that the given words name. -/
def helpFor : List String → UsageError
  | [] => .helpWanted
  | word :: rest =>
    if isCommandWord word then
      match rest with
      | [] => .helpWanted
      | next :: _ => .unknownCommand next
    else .unknownCommand word

/-- The invocation that arguments ask for. What is wrong after the name of the command is reported
    before what is left to check in front of it. -/
def parse (arguments : List String) : Except UsageError Invocation := do
  let (first, found) ← Reading.readAll none {} arguments
  match found with
  | none =>
    let first ← first.settle
    if first.given.isEmpty then throw .nothingGiven else throw .missingCommand
  | some (word, rest) =>
    match CommandName.ofName? word with
    | none => throw (helpFor rest)
    | some name =>
      let (second, _) ← Reading.readAll (some name) {} rest
      let second ← second.settle
      let command ← Settings.command ⟨.empty, second.given⟩ name
      let first ← first.settle
      return Settings.invocation ⟨first.given, second.given⟩ command

end HeaderSearch.CommandLine
