import HeaderSearch.HeaderMap.Document

/-!
# Sets of header maps

A session owns its header maps. A map is found by the path under which it is configured and by what
the configuration demands of it, so entries that share a file but demand different things have maps of
their own. Paths count as equal by their components. The slot of a map, its place in the order of
first insertion, never changes.
-/

namespace HeaderSearch

/-- What a header map is found by. -/
structure HeaderMapKey where
  /-- The components of the configured path. -/
  components : List Component
  /-- What the configuration demands. -/
  options : LoadOptions
deriving DecidableEq, Repr

namespace HeaderMapKey

/-- The key of a map under a path. -/
def ofPath (path : Path) (options : LoadOptions) : HeaderMapKey := ⟨path.components, options⟩

end HeaderMapKey

/-- The header maps of a session. -/
structure HeaderMapSet where
  /-- The maps by their keys. -/
  maps : Table HeaderMapKey HeaderMap := .empty

namespace HeaderMapSet

/-- The set without maps. -/
def empty : HeaderMapSet := {}

/-- The set with a map, in place of an earlier one with the same key. -/
def insert (set : HeaderMapSet) (path : Path) (options : LoadOptions) (map : HeaderMap) :
    HeaderMapSet :=
  ⟨set.maps.insert (.ofPath path options) map⟩

/-- The map with a key. -/
def get? (set : HeaderMapSet) (path : Path) (options : LoadOptions) : Option HeaderMap :=
  set.maps.get? (.ofPath path options)

/-- The slot of the map with a key. -/
def slot? (set : HeaderMapSet) (path : Path) (options : LoadOptions) : Option Nat :=
  set.maps.slot? (.ofPath path options)

/-- The number of maps. -/
def size (set : HeaderMapSet) : Nat := set.maps.size

/-- Whether there is no map. -/
def isEmpty (set : HeaderMapSet) : Bool := set.maps.isEmpty

/-- The set with the maps of the given paths loaded in order, each key once. The first map that
    cannot be loaded ends it. -/
def loadAll {m : Type → Type} [Monad m] [FileSystem m] (set : HeaderMapSet) :
    List (Path × LoadOptions) → m (Except HeaderMap.Error HeaderMapSet)
  | [] => return .ok set
  | (path, options) :: rest => do
    if (set.slot? path options).isSome then loadAll set rest
    else
      match ← HeaderMap.load path options with
      | .error failure => return .error failure
      | .ok map => loadAll (set.insert path options map) rest

end HeaderMapSet

end HeaderSearch
