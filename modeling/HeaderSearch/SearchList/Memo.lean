import HeaderSearch.LookupCache
import HeaderSearch.SearchList.Answer
import HeaderSearch.SearchList.Probe
import HeaderSearch.SearchStats

/-!
# What a search list remembers

Lookups leave behind their outcomes, the bundles of frameworks that were found or not found, and
counts. An outcome is kept in a compact form that does not hold any text. Whatever a file store can
answer can also be asked while the memo is carried along.
-/

namespace HeaderSearch

/-- The remembered form of a hit. -/
structure Hit where
  /-- The file. -/
  file : FileHandle
  /-- What led to it. -/
  origin : Origin
  /-- The directory that holds it; none if a header map named it. -/
  searchDirectory : Option DirHandle
  /-- The offset in bytes at which the part of the name below that directory starts. -/
  relativeStart : Nat
  /-- Whether it belongs to a framework declared as a system framework. -/
  isSystemFramework : Bool
  /-- What the file is classified as. -/
  characteristic : Characteristic
deriving DecidableEq, Repr

/-- What a search list remembers. -/
structure SearchMemo where
  /-- The outcomes of lookups. -/
  cache : LookupCache Hit := .empty
  /-- The bundles of frameworks, by the position of the entry and the name of the framework. -/
  bundles : Table (Nat × String) Bundle := .empty
  /-- The counts so far. -/
  stats : SearchStats := {}

namespace SearchMemo

/-- The memo before the first lookup. -/
def fresh : SearchMemo := {}

instance : Inhabited SearchMemo := ⟨fresh⟩

/-- The memo with its counts changed. -/
def count (memo : SearchMemo) (change : SearchStats → SearchStats) : SearchMemo :=
  { memo with stats := change memo.stats }

end SearchMemo

section Asking

variable {m : Type → Type} [Monad m] [FileStore m]

instance : FileStore (StateT SearchMemo m) where
  directory? path := StateT.lift (FileStore.directory? path)
  file? directory name := StateT.lift (FileStore.file? directory name)
  directoryPath directory := StateT.lift (FileStore.directoryPath directory)
  filePath file := StateT.lift (FileStore.filePath file)

/-- The bundle of a framework below the directory of the entry at a position, found only once. -/
def SearchMemo.bundleAt (index : Nat) (directory : DirHandle) (framework : String) :
    StateT SearchMemo m Bundle := do
  match (← get).bundles.get? (index, framework) with
  | some bundle => return bundle
  | none =>
    let bundle ← Framework.findBundle directory framework
    modify fun memo => { memo with bundles := memo.bundles.insert (index, framework) bundle }
    return bundle

end Asking

end HeaderSearch
