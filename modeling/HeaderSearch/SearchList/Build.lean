import HeaderSearch.Config.Basic
import HeaderSearch.Numeral.Decimal
import HeaderSearch.SearchList.Basic
import HeaderSearch.SortedPairs

/-!
# Search lists of configurations

A configuration is checked once, when its search list is built. Directories that do not exist are left
out, and the start of angled includes moves up by as many as were left out before it. The first entry
at fault, in the order of the configuration, decides what is reported: a directory marked as an index
map, a header map that was not loaded, or an entry that is the same as an earlier one.
-/

namespace HeaderSearch

/-- Why a configuration has no search list. -/
inductive BuildError where
  /-- Two entries, by their positions, are identical. -/
  | duplicate (name : String) (first second : Nat)
  /-- The header map with this path is not among the loaded ones. -/
  | notLoaded (path : Path)
  /-- The entry at a position is marked as an index map and is none. -/
  | notAHeaderMap (index : Nat) (name : String)
  /-- Angled includes start past the last entry. -/
  | startOutOfRange (start size : Nat)
deriving DecidableEq, Repr

namespace BuildError

/-- The message of a failure. -/
def message : BuildError → String
  | duplicate name first second =>
    "duplicate search path entry " ++ name ++ ": entries " ++ Decimal.text first ++ " and " ++
      Decimal.text second ++ " are identical"
  | notLoaded path => "header map " ++ path.text ++ " was not loaded"
  | notAHeaderMap index name =>
    "entry " ++ Decimal.text index ++ " (" ++ name ++
      ") is not a header map but is marked as an index map"
  | startOutOfRange start size =>
    "angled start " ++ Decimal.text start ++ " is past the end of " ++ Decimal.text size ++ " entries"

end BuildError

/-- What an entry looks into, apart from how its path is spelled. -/
inductive Identity where
  /-- A directory. -/
  | directory (handle : DirHandle)
  /-- A directory of framework bundles. -/
  | framework (handle : DirHandle)
  /-- The header map in a slot. -/
  | headerMap (slot : Nat)
deriving DecidableEq, Repr

/-- What makes two entries the same entry. -/
structure EntryKey where
  /-- What the entry looks into. -/
  identity : Identity
  /-- What a file found there is classified as. -/
  characteristic : Characteristic
  /-- Whether only quoted includes look there. -/
  quoteOnly : Bool
  /-- Whether the entry is marked as an index map. -/
  indexMap : Bool
deriving DecidableEq, Repr

/-- A search list in the making. -/
structure PartialList where
  /-- The entries so far, with their keys and their positions in the configuration. -/
  kept : List (EntryKey × Nat × SearchEntry) := []
  /-- The number of entries left out before the start of angled includes. -/
  dropped : Nat := 0

namespace PartialList

/-- The position in the configuration of the entry with a key. -/
def position? (partialList : PartialList) (key : EntryKey) : Option Nat :=
  (partialList.kept.find? fun item => item.1 = key).map (·.2.1)

/-- The list with one more entry. -/
def add (partialList : PartialList) (key : EntryKey) (index : Nat) (entry : SearchEntry) :
    PartialList :=
  { partialList with kept := partialList.kept ++ [(key, index, entry)] }

/-- The list with one more entry left out, given the start of angled includes. -/
def drop (partialList : PartialList) (start index : Nat) : PartialList :=
  if index < start then { partialList with dropped := partialList.dropped + 1 } else partialList

end PartialList

namespace ConfigEntry

variable {m : Type → Type} [Monad m] [FileStore m]

/-- The place that an entry looks into and its identity. There is none for a directory that does not
    exist, and a header map has to be in the set. -/
def locate (entry : ConfigEntry) (maps : HeaderMapSet) :
    m (Except BuildError (Option (SearchPlace × Identity))) :=
  match entry.location with
  | .directory path => do
    let found ← FileStore.directory? path
    return .ok (found.map fun handle => (.directory handle path.shown, .directory handle))
  | .framework path => do
    let found ← FileStore.directory? path
    return .ok (found.map fun handle => (.framework handle path.shown, .framework handle))
  | .headerMap path =>
    match maps.slot? path entry.loadOptions, maps.get? path entry.loadOptions with
    | some slot, some map =>
      return .ok (some (.headerMap map (entry.indexMap || map.isIndex), .headerMap slot))
    | _, _ => return .error (.notLoaded path)

/-- The key of an entry with an identity. -/
def keyOf (entry : ConfigEntry) (identity : Identity) : EntryKey :=
  ⟨identity, entry.characteristic, entry.quoteOnly, entry.indexMap⟩

/-- The name of an entry in messages. -/
def shownName (entry : ConfigEntry) : String := entry.location.path.shown

/-- The list with the entry at a position of the configuration taken in or left out. -/
def enter (entry : ConfigEntry) (maps : HeaderMapSet) (start index : Nat)
    (partialList : PartialList) : m (Except BuildError PartialList) := do
  if entry.indexMap && !entry.location.isHeaderMap then
    return .error (.notAHeaderMap index entry.shownName)
  else
    match ← entry.locate maps with
    | .error failure => return .error failure
    | .ok none => return .ok (partialList.drop start index)
    | .ok (some (place, identity)) =>
      let key := entry.keyOf identity
      match partialList.position? key with
      | some first => return .error (.duplicate entry.shownName first index)
      | none =>
        return .ok (partialList.add key index
          ⟨place, entry.characteristic, entry.quoteOnly⟩)

/-- The list with all entries from a position of the configuration on taken in or left out. -/
def enterAll (maps : HeaderMapSet) (start index : Nat) (partialList : PartialList) :
    List ConfigEntry → m (Except BuildError PartialList)
  | [] => return .ok partialList
  | entry :: others => do
    match ← entry.enter maps start index partialList with
    | .error failure => return .error failure
    | .ok larger => enterAll maps start (index + 1) larger others

end ConfigEntry

namespace Config

variable {m : Type → Type} [Monad m] [FileStore m]

/-- The search list of a configuration over the loaded header maps. -/
def build (config : Config) (maps : HeaderMapSet) : m (Except BuildError SearchList) := do
  let start := config.start
  let size := config.entries.length
  if size < start then return .error (.startOutOfRange start size)
  else
    match ← ConfigEntry.enterAll maps start 0 {} config.entries with
    | .error failure => return .error failure
    | .ok partialList =>
      return .ok {
        entries := partialList.kept.map (·.2.2)
        angledStart := start - partialList.dropped
        systemFrameworks := SortedPairs.distinctWords config.systemFrameworks }

end Config

end HeaderSearch
