import HeaderSearch.SearchList.Memo
import HeaderSearch.Text.Offset

/-!
# Lookups in a search list

A quoted include first looks into the directory of the file that includes it. Otherwise, and if that
does not hold the name, the entries of the list are searched in order and the first one that has the
name answers, whatever its characteristic. Every outcome is remembered, misses too, and so are the
bundles of frameworks.
-/

namespace HeaderSearch

namespace SearchList

variable {m : Type → Type} [Monad m] [FileStore m] (list : SearchList)

/-- Looks for a name in the entry at a position. -/
def probeAt (entry : SearchEntry) (index : Nat) (name : String) :
    StateT SearchMemo m (Option PlaceHit) :=
  entry.place.probe (SearchMemo.bundleAt index) list.systemFrameworks name

/-- Looks for a name in entries, in order, up to the first that has it. -/
def scan (name : String) : List (SearchEntry × Nat) → StateT SearchMemo m (Option Hit)
  | [] => return none
  | (entry, index) :: others => do
    modify fun memo =>
      memo.count fun stats => { stats with entryProbes := stats.entryProbes + 1 }
    match ← list.probeAt entry index name with
    | some found =>
      return some {
        file := found.file
        origin := .entry index
        searchDirectory := found.searchDirectory
        relativeStart := found.relativeStart
        isSystemFramework := found.isSystemFramework
        characteristic := entry.characteristic }
    | none => scan name others

/-- The outcome of a name and kind in the list, and whether it was remembered. -/
def lookInList (name : String) (kind : IncludeKind) :
    StateT SearchMemo m (Option Hit × Bool) := do
  match (← get).cache.get? name kind with
  | some outcome => return (outcome, true)
  | none =>
    let outcome ← list.scan name (list.eligible kind)
    modify fun memo => { memo with cache := memo.cache.insert name kind outcome }
    return (outcome, false)

/-- The outcome of a name in the directory of the including file, and whether it was remembered. The
    characteristic is the one of this including file, even if the outcome was remembered for another
    file of the same directory. -/
def lookBeside (name : String) (includer : Includer) :
    StateT SearchMemo m (Option Hit × Bool) := do
  let adapt (hit : Hit) : Hit := { hit with characteristic := includer.characteristic }
  match (← get).cache.getBeside? includer.directory name with
  | some outcome => return (outcome.map adapt, true)
  | none =>
    let file ← FileStore.file? includer.directory name
    let outcome := file.map fun file =>
      { file, origin := .includer, searchDirectory := some includer.directory, relativeStart := 0,
        isSystemFramework := false, characteristic := includer.characteristic }
    modify fun memo =>
      { memo with cache := memo.cache.insertBeside includer.directory name outcome }
    return (outcome.map adapt, false)

/-- The search path of a hit. -/
def searchPathOf (hit : Hit) : m String :=
  match hit.origin, hit.searchDirectory with
  | .entry index, searchDirectory =>
    match list.entries[index]? with
    | some entry => entry.place.searchPath searchDirectory
    | none => return ""
  | .includer, some directory => do
    let path ← FileStore.directoryPath directory
    return path.shown
  | .includer, none => return ""

/-- The answer that a hit stands for, with the texts that are wanted. -/
def answer (name : String) (want : PathRequest) (hit : Hit) : m FoundHeader := do
  let searchPath ← if want.searchPath then some <$> list.searchPathOf hit else pure none
  return {
    file := hit.file
    searchPath
    relativePath := if want.relativePath then Text.suffixFrom? name hit.relativeStart else none
    isSystemFramework := hit.isSystemFramework
    characteristic := hit.characteristic
    origin := hit.origin }

/-- The outcome in the directory of the including file, which only a quoted include with an including
    file asks for. -/
def lookBesideFor (name : String) (kind : IncludeKind) (includer : Option Includer) :
    StateT SearchMemo m (Option Hit × Bool) :=
  match kind, includer with
  | .quoted, some includer => lookBeside name includer
  | _, _ => return (none, false)

/-- The memo with a remembered answer counted. -/
def countRemembered (remembered : Bool) (memo : SearchMemo) : SearchMemo :=
  if remembered then memo.count fun stats => { stats with cacheHits := stats.cacheHits + 1 }
  else memo

/-- Looks up a name of a kind, included by a file if one is given. A lookup counts as remembered only
    if the step that answers it was. -/
def resolve (name : String) (kind : IncludeKind) (includer : Option Includer)
    (want : PathRequest) : StateT SearchMemo m (Option FoundHeader) := do
  modify fun memo => memo.count fun stats => { stats with lookups := stats.lookups + 1 }
  match ← lookBesideFor name kind includer with
  | (some hit, remembered) =>
    modify fun memo =>
      memo.count fun stats => { stats with includerHits := stats.includerHits + 1 }
    modify (countRemembered remembered)
    some <$> list.answer name want hit
  | (none, _) =>
    let (outcome, remembered) ← list.lookInList name kind
    modify (countRemembered remembered)
    match outcome with
    | some hit => some <$> list.answer name want hit
    | none =>
      modify fun memo => memo.count fun stats => { stats with misses := stats.misses + 1 }
      return none

/-- Looks up a name in the entry at a position alone. The bundles that the entry remembers are shared
    with `resolve`; outcomes and counts are not touched. -/
def lookupAt (entry : SearchEntry) (index : Nat) (name : String) (want : PathRequest) :
    StateT SearchMemo m (Option EntryMatch) := do
  match ← list.probeAt entry index name with
  | none => return none
  | some found =>
    let searchPath ←
      if want.searchPath then some <$> entry.place.searchPath found.searchDirectory
      else pure none
    return some {
      file := found.file
      searchPath
      relativePath :=
        if want.relativePath then Text.suffixFrom? name found.relativeStart else none
      isSystemFramework := found.isSystemFramework }

end SearchList

end HeaderSearch
