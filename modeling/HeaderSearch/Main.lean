import HeaderSearch.CommandLine.Run

/-!
# The program

The file system of the machine answers here, and its console is the standard streams of the process.
Everything else is decided by the modules above.
-/

namespace HeaderSearch

/-- The cause that a failure to read has. -/
def ReadError.ofSystem : IO.Error → ReadError
  | .noFileOrDirectory .. => .notFound
  | .inappropriateType .. => .isADirectory
  | failure => .other (toString failure)

/-- The result of an action, or nothing if it fails. -/
def attempt? {α : Type} (action : IO α) : IO (Option α) := do
  match ← action.toBaseIO with
  | .ok value => return some value
  | .error _ => return none

instance : FileSystem IO where
  kind? path := do
    match ← attempt? (IO.FS.realPath path.text) with
    | none => return none
    | some real =>
      match ← attempt? (IO.FS.realPath (path.text ++ "/.")) with
      | some _ => return some .directory
      | none =>
        match ← attempt? real.metadata with
        | none => return none
        | some data => return some (if data.type == .file then .regular else .other)
  canonical? path := do
    let real ← attempt? (IO.FS.realPath path.text)
    return real.map fun found => ⟨found.toString⟩
  read path := do
    match ← (IO.FS.readFile path.text).toBaseIO with
    | .ok text => return .ok text
    | .error failure => return .error (.ofSystem failure)

namespace CommandLine

instance : Console IO where
  print text := IO.print text
  printError text := IO.eprint text

/-- The help text. -/
def helpText : String :=
  "Looks up include names by an ordered search path.\n\n" ++
  "Usage: headersearch [OPTIONS] <COMMAND>\n\n" ++
  "Commands:\n" ++
  "  resolve <NAME>...  look names up\n" ++
  "  list               report the search list\n" ++
  "  deps <FILE>        look up the include directives of a source file\n" ++
  "  help [COMMAND]     show this text\n"

/-- The version text. -/
def versionText : String := "headersearch 0.1.0"

namespace UsageError

/-- Whether something was asked for that is shown and is no mistake. -/
def isRequest : UsageError → Bool
  | helpWanted => true
  | versionWanted => true
  | _ => false

/-- The text for a command line that is no command. -/
def text : UsageError → String
  | helpWanted => helpText
  | versionWanted => versionText
  | nothingGiven => helpText
  | missingCommand => "a command is missing"
  | missingArgument => "a positional argument is missing"
  | unknownArgument text => "unexpected argument: " ++ text
  | unknownCommand word => "unknown command: " ++ word
  | invalidValue _ => "an option lacks a value or has an invalid one"
  | repeatedOption _ => "an option is given more than once"
  | unexpectedValue _ => "a value is given to an option that takes none"

end UsageError

/-- The text of the messages of a failure, each cause on a line of its own. -/
def failureText : List String → String
  | [] => ""
  | first :: causes =>
    "Error: " ++ first ++
      (if causes = [] then "" else "\n\nCaused by:" ++ String.join (causes.map ("\n    " ++ ·)))

end CommandLine

end HeaderSearch

open HeaderSearch CommandLine in
/-- Runs the program. -/
def main (arguments : List String) : IO UInt32 := do
  match parse arguments with
  | .error usage =>
    if usage.isRequest then
      IO.println usage.text
      return 0
    else
      IO.eprintln usage.text
      return 2
  | .ok invocation =>
    match ← invocation.run with
    | .error failure =>
      IO.eprintln (failureText (failure.messages .plain))
      return 1
    | .ok () => return 0
