import HeaderSearch.Characteristic
import HeaderSearch.HeaderMap.Set

/-!
# Configurations of a search

A configuration lists the locations of a search in order, says from where on angled includes look, and
names the system frameworks. It comes from flags, from a document, or from both: `merge` appends a
second configuration to a first without changing what the first one says.
-/

namespace HeaderSearch

/-- Where an entry looks. -/
inductive Location where
  /-- In a directory. -/
  | directory (path : Path)
  /-- In a directory of framework bundles. -/
  | framework (path : Path)
  /-- In a header map, by the path of its file. -/
  | headerMap (path : Path)
deriving DecidableEq, Repr

namespace Location

/-- The configured path. -/
def path : Location → Path
  | directory path => path
  | framework path => path
  | headerMap path => path

/-- Whether the location is a header map. -/
def isHeaderMap : Location → Bool
  | headerMap _ => true
  | _ => false

/-- Whether two locations are of one sort and have the same path. -/
def same : Location → Location → Bool
  | directory first, directory second => first.same second
  | framework first, framework second => first.same second
  | headerMap first, headerMap second => first.same second
  | _, _ => false

end Location

/-- One entry of a configuration. -/
structure ConfigEntry where
  /-- Where the entry looks. -/
  location : Location
  /-- What a file found there is classified as. -/
  characteristic : Characteristic := .user
  /-- Whether only quoted includes look there. -/
  quoteOnly : Bool := false
  /-- Whether the header map is an index map even if it is not declared as one. -/
  indexMap : Bool := false
  /-- The rule of comparison of the header map, in place of the declared one. -/
  caseRule : Option CaseRule := none
deriving DecidableEq, Repr

namespace ConfigEntry

/-- What the entry demands of its header map. -/
def loadOptions (entry : ConfigEntry) : LoadOptions := ⟨entry.caseRule, entry.indexMap⟩

/-- The path of the header map and what is demanded of it, if the entry is one. -/
def headerMap? (entry : ConfigEntry) : Option (Path × LoadOptions) :=
  match entry.location with
  | .headerMap path => some (path, entry.loadOptions)
  | _ => none

/-- Whether two entries are equal, their paths compared by components. -/
def same (first second : ConfigEntry) : Bool :=
  first.location.same second.location && first.characteristic = second.characteristic &&
    first.quoteOnly = second.quoteOnly && first.indexMap = second.indexMap &&
    first.caseRule = second.caseRule

end ConfigEntry

/-- The configuration of a search. -/
structure Config where
  /-- The entries in the order of the search. -/
  entries : List ConfigEntry := []
  /-- The first entry that angled includes may use; if it is not given, the first entry that is not
      only for quoted includes. -/
  angledStart : Option Nat := none
  /-- The names of the system frameworks. -/
  systemFrameworks : List String := []
deriving DecidableEq, Repr, Inhabited

/-- The flags that make up a configuration, each with its values in the order given. -/
structure Flags where
  /-- Directories for quoted includes only. -/
  quote : List Path := []
  /-- Directories. -/
  angled : List Path := []
  /-- Directories of framework bundles. -/
  framework : List Path := []
  /-- System directories. -/
  system : List Path := []
  /-- System directories of framework bundles. -/
  systemFramework : List Path := []
  /-- Header maps. -/
  headerMaps : List Path := []
  /-- Header maps that are taken as index maps. -/
  indexHeaderMaps : List Path := []
  /-- Names of system frameworks. -/
  systemFrameworkNames : List String := []
deriving DecidableEq, Repr, Inhabited

namespace Config

/-- The configuration of flags: directories for quoted includes, header maps, index maps, directories,
    framework directories, and last the system ones of both sorts. Angled includes start right after
    the directories for quoted includes. -/
def ofFlags (flags : Flags) : Config where
  entries :=
    flags.quote.map (fun path => { location := .directory path, quoteOnly := true }) ++
    flags.headerMaps.map (fun path => { location := .headerMap path }) ++
    flags.indexHeaderMaps.map (fun path => { location := .headerMap path, indexMap := true }) ++
    flags.angled.map (fun path => { location := .directory path }) ++
    flags.framework.map (fun path => { location := .framework path }) ++
    flags.system.map (fun path => { location := .directory path, characteristic := .system }) ++
    flags.systemFramework.map (fun path =>
      { location := .framework path, characteristic := .system })
  angledStart := some flags.quote.length
  systemFrameworks := flags.systemFrameworkNames

/-- The words of a list followed by those of another that are not yet there, each once. -/
def appendNew (words : List String) : List String → List String
  | [] => words
  | word :: rest => appendNew (if words.contains word then words else words ++ [word]) rest

/-- The configuration with another one appended. The start of angled includes is the one of the side
    that brings the first entry. -/
def merge (first second : Config) : Config where
  entries := first.entries ++ second.entries
  angledStart := if first.entries = [] then second.angledStart else first.angledStart
  systemFrameworks := appendNew first.systemFrameworks second.systemFrameworks

/-- The position of the first entry that is not only for quoted includes, or the number of entries if
    there is none. -/
def automaticStart (config : Config) : Nat :=
  config.entries.findIdx fun entry => !entry.quoteOnly

/-- The first entry that angled includes may use. -/
def start (config : Config) : Nat := config.angledStart.getD config.automaticStart

/-- The header maps that the configuration names, in order. -/
def headerMaps (config : Config) : List (Path × LoadOptions) :=
  config.entries.filterMap ConfigEntry.headerMap?

/-- Whether two configurations are equal, their paths compared by components. -/
def same (first second : Config) : Bool :=
  first.entries.length = second.entries.length &&
    (first.entries.zip second.entries).all (fun (one, other) => one.same other) &&
    first.angledStart = second.angledStart && first.systemFrameworks = second.systemFrameworks

/-- The header maps of a configuration, loaded in order. -/
def loadMaps {m : Type → Type} [Monad m] [FileSystem m] (config : Config) :
    m (Except HeaderMap.Error HeaderMapSet) :=
  HeaderMapSet.empty.loadAll config.headerMaps

end Config

end HeaderSearch
