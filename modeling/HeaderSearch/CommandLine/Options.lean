import HeaderSearch.Text.Split

/-!
# Options of the command line

The command line has a level for options alone and one for each command. The options of the first
level are understood on every level, and the others only where they belong. An option is known by its
whole long name or by its letter.
-/

namespace HeaderSearch.CommandLine

/-- What an option or a positional argument sets. -/
inductive Setting where
  /-- The format of the report. -/
  | format
  /-- That nothing is coloured. -/
  | noColor
  /-- That only errors are logged. -/
  | quiet
  /-- That details are logged. -/
  | verbose
  /-- That JSON is indented. -/
  | pretty
  /-- That statistics are shown. -/
  | stats
  /-- The file with the configuration. -/
  | config
  /-- A directory. -/
  | angled
  /-- A directory for quoted includes. -/
  | quote
  /-- A system directory. -/
  | system
  /-- A directory of framework bundles. -/
  | framework
  /-- A system directory of framework bundles. -/
  | systemFramework
  /-- A header map. -/
  | headerMap
  /-- A header map taken as an index map. -/
  | indexHeaderMap
  /-- The name of a system framework. -/
  | systemFrameworkName
  /-- That names without delimiters are quoted includes. -/
  | quoted
  /-- The including file. -/
  | includer
  /-- That the including file is a system header. -/
  | includerSystem
  /-- The names to look up. -/
  | names
  /-- The source file. -/
  | source
  /-- That help is asked for. -/
  | help
  /-- That the version is asked for. -/
  | version
deriving DecidableEq, Repr

/-- What an option takes. -/
inductive OptionForm where
  /-- Nothing; it may be given once. -/
  | switch
  /-- A value, once. -/
  | single
  /-- A value, any number of times. -/
  | repeated
  /-- Nothing; it ends the reading. -/
  | ending
deriving DecidableEq, Repr

/-- An option or a positional argument. -/
structure Argument where
  /-- What it sets. -/
  setting : Setting
  /-- Its long name; empty for a positional argument. -/
  long : String := ""
  /-- Its letter. -/
  short : Option Char := none
  /-- What it takes. -/
  form : OptionForm
  /-- Whether its value is a path, which must not be empty. -/
  isPath : Bool := false
deriving DecidableEq, Repr

/-- The commands. -/
inductive CommandName where
  /-- Looks up names. -/
  | resolve
  /-- Reports the search list. -/
  | list
  /-- Looks up the directives of a source file. -/
  | deps
deriving DecidableEq, Repr

namespace CommandName

/-- The command that a word is. -/
def ofName? (word : String) : Option CommandName :=
  if word = "resolve" then some resolve
  else if word = "list" then some list
  else if word = "deps" then some deps
  else none

end CommandName

/-- The word that asks for help about a command. -/
def helpWord : String := "help"

/-- Whether a word stands in the place of a command. -/
def isCommandWord (word : String) : Bool :=
  word = helpWord || (CommandName.ofName? word).isSome

/-- The options that every level understands. -/
def commonOptions : List Argument := [
  { setting := .format, long := "format", form := .single },
  { setting := .noColor, long := "no-color", form := .switch },
  { setting := .quiet, long := "quiet", short := some 'q', form := .switch },
  { setting := .verbose, long := "verbose", short := some 'v', form := .switch },
  { setting := .pretty, long := "pretty", form := .switch },
  { setting := .stats, long := "stats", form := .switch },
  { setting := .config, long := "config", form := .single, isPath := true },
  { setting := .angled, long := "include", short := some 'I', form := .repeated, isPath := true },
  { setting := .quote, long := "iquote", form := .repeated, isPath := true },
  { setting := .system, long := "isystem", form := .repeated, isPath := true },
  { setting := .framework, long := "framework-dir", short := some 'F', form := .repeated,
    isPath := true },
  { setting := .systemFramework, long := "iframework", form := .repeated, isPath := true },
  { setting := .headerMap, long := "hmap", form := .repeated, isPath := true },
  { setting := .indexHeaderMap, long := "index-hmap", form := .repeated, isPath := true },
  { setting := .systemFrameworkName, long := "system-framework", form := .repeated },
  { setting := .help, long := "help", short := some 'h', form := .ending }]

/-- A level of the command line: the one before the command, or the one of a command. -/
abbrev Level := Option CommandName

namespace Level

/-- The options that only one level understands. -/
def ownOptions : Level → List Argument
  | none => [{ setting := .version, long := "version", short := some 'V', form := .ending }]
  | some .resolve => [
      { setting := .quoted, long := "quoted", form := .switch },
      { setting := .includer, long := "from", form := .single, isPath := true },
      { setting := .includerSystem, long := "includer-system", form := .switch }]
  | some .list => []
  | some .deps => []

/-- The options that a level understands. -/
def options (level : Level) : List Argument := commonOptions ++ level.ownOptions

/-- The positional argument of a level. -/
def positional? : Level → Option Argument
  | some .resolve => some { setting := .names, form := .repeated }
  | some .deps => some { setting := .source, form := .single, isPath := true }
  | _ => none

/-- The option with a long name. -/
def byName? (level : Level) (name : String) : Option Argument :=
  level.options.find? fun option => option.long = name

/-- The option with a letter. -/
def byLetter? (level : Level) (letter : Char) : Option Argument :=
  level.options.find? fun option => option.short = some letter

end Level

end HeaderSearch.CommandLine
