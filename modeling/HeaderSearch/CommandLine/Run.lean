import HeaderSearch.CommandLine.Console
import HeaderSearch.CommandLine.Invocation
import HeaderSearch.CommandLine.Summary
import HeaderSearch.Config.Document
import HeaderSearch.HeaderMap.Message
import HeaderSearch.Report.Listing
import HeaderSearch.Report.Lookups
import HeaderSearch.Report.Render
import HeaderSearch.SearchList.Build
import HeaderSearch.SearchList.Includer

/-!
# Running a command

A command reads the configuration, loads the header maps, builds the search list, and writes one report
to the standard stream. The statistics follow on the error stream, if they are shown. A failure ends the
run with its cause.
-/

namespace HeaderSearch.CommandLine

/-- Why a command fails. -/
inductive Failure where
  /-- The configuration cannot be read. -/
  | configUnreadable (path : Path) (cause : ReadError)
  /-- The text of the configuration is not one. -/
  | configMalformed (path : Path)
  /-- A header map cannot be used. -/
  | headerMap (failure : HeaderMap.Error)
  /-- The configuration has no search list. -/
  | build (failure : BuildError)
  /-- The source file cannot be read. -/
  | sourceUnreadable (path : Path) (cause : ReadError)
  /-- The directory of the including file is not there. -/
  | includerMissing (directory : Path)
deriving DecidableEq, Repr

namespace Failure

/-- The messages of a failure, from what was attempted to the innermost cause. -/
def messages (wording : Wording) : Failure → List String
  | configUnreadable path cause =>
    ["Failed to read config file: " ++ path.text, wording.unreadable cause]
  | configMalformed path =>
    ["Invalid config file: " ++ path.text, "Failed to parse search path config", wording.malformed]
  | headerMap failure =>
    ["Failed to load header maps", failure.message wording] ++ (failure.cause? wording).toList
  | build failure => ["Invalid search path configuration", failure.message]
  | sourceUnreadable path cause =>
    ["Failed to read source file: " ++ path.text, wording.unreadable cause]
  | includerMissing directory => [Includer.missingMessage directory]

end Failure

variable {m : Type → Type} [Monad m] [FileSystem m]

/-- The lookups of a session: a search list over a file store that remembers the file system. -/
abbrev SessionM (m : Type → Type) := StateT SearchMemo (StateT FileMemo m)

/-- The including file of a path. -/
def includerOf (path : Path) (isSystem : Bool) : SessionM m (Except Failure Includer) := do
  let kind ← (FileSystem.kind? path : m _)
  match ← Includer.ofPath path (kind = some .directory) isSystem with
  | .error directory => return .error (.includerMissing directory)
  | .ok includer => return .ok includer

/-- The including file of a path, if there is a path. -/
def includerOf? (path : Option Path) (isSystem : Bool) :
    SessionM m (Except Failure (Option Includer)) := do
  match path with
  | none => return .ok none
  | some path => return (← includerOf path isSystem).map some

/-- How a report is written. -/
structure ReportStyle where
  /-- The format. -/
  format : ReportFormat
  /-- Whether JSON is indented. -/
  isPretty : Bool
deriving DecidableEq, Repr

/-- The text of a report. -/
def ReportStyle.render (style : ReportStyle) (items : List Item) : String :=
  Report.render style.format style.isPretty items

section Writing

variable [Console m]

/-- Writes a text and a line feed to the standard stream. -/
def printLine (text : String) : m Unit := Console.print (text ++ "\n")

variable (style : ReportStyle) (list : SearchList)

/-- Looks up names and writes the report. -/
def runResolve (names : List String) (kind : IncludeKind) (path : Option Path)
    (includerIsSystem : Bool) : SessionM m (Except Failure Unit) := do
  match ← includerOf? path includerIsSystem with
  | .error failure => return .error failure
  | .ok includer =>
    let items ← list.resolveNames names kind includer
    (printLine (style.render items) : m Unit)
    return .ok ()

/-- Writes the report of the search list. -/
def runList : SessionM m (Except Failure Unit) := do
  (printLine (style.render list.listing) : m Unit)
  return .ok ()

/-- Looks up the directives of a source file and writes the report. -/
def runDeps (source : Path) : SessionM m (Except Failure Unit) := do
  match ← (FileSystem.read source : m _) with
  | .error cause => return .error (.sourceUnreadable source cause)
  | .ok text =>
    match ← includerOf source false with
    | .error failure => return .error failure
    | .ok includer =>
      let items ← list.resolveDirectives includer (Directive.scan text)
      (printLine (style.render items) : m Unit)
      return .ok ()

/-- Runs a command over a search list. -/
def Command.run : Command → SessionM m (Except Failure Unit)
  | .resolve names isQuoted path includerIsSystem =>
    runResolve style list names (if isQuoted then .quoted else .angled) path includerIsSystem
  | .list => runList style list
  | .deps source => runDeps style list source

end Writing

namespace Invocation

/-- The configuration of an invocation: the one in the file, with that of the flags appended. -/
def searchConfig (invocation : Invocation) : m (Except Failure Config) := do
  let fromFlags := Config.ofFlags invocation.flags
  match invocation.config with
  | none => return .ok fromFlags
  | some path =>
    match ← FileSystem.read path with
    | .error cause => return .error (.configUnreadable path cause)
    | .ok text =>
      match Config.ofText? text with
      | none => return .error (.configMalformed path)
      | some config => return .ok (config.merge fromFlags)

/-- How the report of an invocation is written. -/
def style (invocation : Invocation) : ReportStyle where
  format := (ReportFormat.ofName? invocation.format).getD default
  isPretty := invocation.isPretty

variable [Console m]

/-- Runs the command over a configuration and its header maps, and shows the statistics if it has
    answered. -/
def runOver (invocation : Invocation) (config : Config) (maps : HeaderMapSet) :
    m (Except Failure Unit) := do
  let (built, files) ← (config.build (m := StateT FileMemo m) maps).run FileMemo.fresh
  match built with
  | .error failure => return .error (.build failure)
  | .ok list =>
    let ((answer, memo), files) ←
      ((invocation.command.run invocation.style list).run SearchMemo.fresh).run files
    match answer with
    | .error failure => return .error failure
    | .ok () =>
      if invocation.showsStats then Console.printError (summary memo.stats files.counts)
      return .ok ()

/-- Runs an invocation. -/
def run (invocation : Invocation) : m (Except Failure Unit) := do
  match ← invocation.searchConfig with
  | .error failure => return .error failure
  | .ok config =>
    match ← config.loadMaps with
    | .error failure => return .error (.headerMap failure)
    | .ok maps => invocation.runOver config maps

end Invocation

end HeaderSearch.CommandLine
