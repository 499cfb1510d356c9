import HeaderSearch.Characteristic
import HeaderSearch.Include.Kind
import HeaderSearch.Json.Record

/-!
# Items of a report

Every command answers with a list of items of one form: a header that was found, an include that was
not found, an entry of the search list, or statistics. An item is a record in which only the kind has
to be there; a field without value is left out when the item is written.
-/

namespace HeaderSearch

/-- What an item of a report is about. -/
inductive ItemKind where
  /-- A header that was found. -/
  | header
  /-- An include that was not found. -/
  | notFound
  /-- An entry of the search list. -/
  | entry
  /-- Statistics. -/
  | stats
deriving DecidableEq, Repr, Inhabited

namespace ItemKind

/-- The word for a kind. -/
def name : ItemKind → String
  | header => "header"
  | notFound => "not-found"
  | entry => "entry"
  | stats => "stats"

/-- The kind that a word stands for. -/
def ofName? (word : String) : Option ItemKind :=
  if word = "header" then some header
  else if word = "not-found" then some notFound
  else if word = "entry" then some entry
  else if word = "stats" then some stats
  else none

@[simp] theorem ofName?_name (kind : ItemKind) : ofName? kind.name = some kind := by
  cases kind <;> rfl

end ItemKind

/-- What went wrong with an item. -/
structure ItemError where
  /-- The code of the failure. -/
  code : String
  /-- The message of the failure. -/
  message : String
deriving DecidableEq, Repr

/-- An item of a report. -/
structure Item where
  /-- What the item is about. -/
  kind : ItemKind
  /-- The name of the include, or of the entry. -/
  name : Option String := none
  /-- How the include is spelled. -/
  includeKind : Option IncludeKind := none
  /-- The path of the header. -/
  path : Option String := none
  /-- The location that the header was found relative to. -/
  searchPath : Option String := none
  /-- The path of the header below that location. -/
  relativePath : Option String := none
  /-- What the header or the entry is classified as. -/
  characteristic : Option Characteristic := none
  /-- Whether the header belongs to a framework declared as a system framework. -/
  systemFramework : Bool := false
  /-- The number of the line of the directive. -/
  line : Option Nat := none
  /-- Further content. -/
  data : Option Json := none
  /-- What went wrong. -/
  errors : List ItemError := []
deriving Repr

namespace Item

/-- The item of a header found under a path. -/
def header (name : String) (kind : IncludeKind) (path : String) : Item :=
  { kind := .header, name := some name, includeKind := some kind, path := some path }

/-- The error of an include that was not found. -/
def missingError (name : String) : ItemError :=
  ⟨"HEADER_NOT_FOUND", "'" ++ name ++ "' file not found"⟩

/-- The item of an include that was not found. -/
def missing (name : String) (kind : IncludeKind) : Item :=
  { kind := .notFound, name := some name, includeKind := some kind, errors := [missingError name] }

/-- The item of an entry of the search list. -/
def entry (name : String) (characteristic : Characteristic) : Item :=
  { kind := .entry, name := some name, characteristic := some characteristic }

/-- The item of statistics. -/
def stats (data : Json) : Item := { kind := .stats, data := some data }

end Item

/-- The number of items of a report with an error. -/
def Report.errorCount (items : List Item) : Nat :=
  (items.filter fun item => !item.errors.isEmpty).length

end HeaderSearch
