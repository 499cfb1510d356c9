import HeaderSearch.FileSystem
import HeaderSearch.Table
import HeaderSearch.Text.Case

/-!
# Header maps

A header map leads from spelled include names straight to paths of files. It compares names either
letter by letter or without regard to the case of A to Z; either way no two of its keys are alike and
none is empty. An index map is one whose keys leave out the name of the framework.
-/

namespace HeaderSearch

/-- How names are compared with the keys of a header map. -/
inductive CaseRule where
  /-- Letter by letter. -/
  | sensitive
  /-- Without regard to the case of A to Z. -/
  | insensitive
deriving DecidableEq, Repr

namespace CaseRule

instance : Inhabited CaseRule := ⟨insensitive⟩

/-- The word for a rule. -/
def name : CaseRule → String
  | sensitive => "sensitive"
  | insensitive => "insensitive"

/-- The rule that a word stands for. -/
def ofName? (word : String) : Option CaseRule :=
  if word = "sensitive" then some sensitive
  else if word = "insensitive" then some insensitive
  else none

/-- The form in which a name is compared: two names are alike when their forms are equal. -/
def fold : CaseRule → String → String
  | sensitive, name => name
  | insensitive, name => Text.foldAscii name

@[simp] theorem ofName?_name (rule : CaseRule) : ofName? rule.name = some rule := by
  cases rule <;> rfl

end CaseRule

/-- A table from include names to paths. -/
structure HeaderMap where
  /-- What the map is called in messages and reports. -/
  name : String
  /-- How names are compared with the keys. -/
  caseRule : CaseRule
  /-- Whether the keys leave out the name of the framework. -/
  isIndex : Bool
  /-- The paths, by the folded keys. -/
  entries : Table String String := .empty

namespace HeaderMap

/-- Why a header map cannot be used. -/
inductive Error where
  /-- The file cannot be read. -/
  | unreadable (path : Path) (cause : ReadError)
  /-- The text is not the text of a header map. -/
  | malformed (map : String)
  /-- A key is empty. -/
  | emptyKey (map : String)
  /-- A key is like an earlier one. -/
  | repeatedKey (map : String) (key : String)
deriving DecidableEq, Repr

/-- The map without entries. -/
def empty (name : String) (caseRule : CaseRule) (isIndex : Bool) : HeaderMap :=
  { name, caseRule, isIndex }

/-- What comes of adding an entry to the map, and the map after that. -/
def add (map : HeaderMap) (key : String) (path : String) : Except Error Unit × HeaderMap :=
  if key = "" then (.error (.emptyKey map.name), map)
  else if map.entries.contains (map.caseRule.fold key) then
    (.error (.repeatedKey map.name key), map)
  else (.ok (), { map with entries := map.entries.insert (map.caseRule.fold key) path })

/-- The map with one more entry, if that is not refused. -/
def insert (map : HeaderMap) (key : String) (path : String) : Except Error HeaderMap :=
  match map.add key path with
  | (.error refusal, _) => .error refusal
  | (.ok (), larger) => .ok larger

/-- The map with entries added in order, up to the first that is refused. -/
def insertAll (map : HeaderMap) : List (String × String) → Except Error HeaderMap
  | [] => .ok map
  | (key, path) :: rest =>
    match map.insert key path with
    | .error refusal => .error refusal
    | .ok larger => insertAll larger rest

/-- The map of the given entries. -/
def ofEntries (name : String) (caseRule : CaseRule) (isIndex : Bool)
    (entries : List (String × String)) : Except Error HeaderMap :=
  (empty name caseRule isIndex).insertAll entries

/-- The path that the map gives for a name. -/
def lookup? (map : HeaderMap) (name : String) : Option String :=
  map.entries.get? (map.caseRule.fold name)

/-- The number of entries. -/
def size (map : HeaderMap) : Nat := map.entries.size

/-- Whether the map has no entry. -/
def isEmpty (map : HeaderMap) : Bool := map.entries.isEmpty

end HeaderMap

/-- What a configuration demands of a header map, whatever its text declares. -/
structure LoadOptions where
  /-- The rule of comparison, in place of the declared one. -/
  caseRule : Option CaseRule := none
  /-- Whether the map is an index map even if it is not declared as one. -/
  isIndex : Bool := false
deriving DecidableEq, Repr, Inhabited

end HeaderSearch
