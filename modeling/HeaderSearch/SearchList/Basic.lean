import HeaderSearch.Characteristic
import HeaderSearch.FileStore.Basic
import HeaderSearch.HeaderMap.Basic
import HeaderSearch.Include.Kind

/-!
# Search lists

A search list holds the places that includes are looked up in, in a fixed order. Angled includes start
at a position of their own and pass over the entries that are for quoted includes only.
-/

namespace HeaderSearch

/-- A place that a search looks into. -/
inductive SearchPlace where
  /-- A directory, with the path as it was configured. -/
  | directory (handle : DirHandle) (name : String)
  /-- A directory of framework bundles, with the path as it was configured. -/
  | framework (handle : DirHandle) (name : String)
  /-- A header map, and whether it is used as an index map. -/
  | headerMap (map : HeaderMap) (isIndex : Bool)

namespace SearchPlace

/-- The configured path of a directory, or the name of a header map. -/
def name : SearchPlace → String
  | directory _ name => name
  | framework _ name => name
  | headerMap map _ => map.name

/-- The word for the sort of a place in records. -/
def sort : SearchPlace → String
  | directory _ _ => "normal-dir"
  | framework _ _ => "framework"
  | headerMap _ _ => "header-map"

/-- The short word for the sort of a place. -/
def shortSort : SearchPlace → String
  | directory _ _ => "dir"
  | framework _ _ => "framework"
  | headerMap _ _ => "header-map"

/-- Whether the place is a header map used as an index map. -/
def isIndexMap : SearchPlace → Bool
  | headerMap _ isIndex => isIndex
  | _ => false

end SearchPlace

/-- An entry of a search list. -/
structure SearchEntry where
  /-- Where the entry looks. -/
  place : SearchPlace
  /-- What a file found there is classified as. -/
  characteristic : Characteristic
  /-- Whether only quoted includes look there. -/
  quoteOnly : Bool

/-- An ordered list of places to search. -/
structure SearchList where
  /-- The entries in the order of the search. -/
  entries : List SearchEntry
  /-- The first position that angled includes look at. -/
  angledStart : Nat
  /-- The names of the system frameworks in ascending order, each once. -/
  systemFrameworks : List String

namespace SearchList

/-- The number of entries. -/
def size (list : SearchList) : Nat := list.entries.length

/-- The position where the lookup of a kind starts. -/
def startOf (list : SearchList) : IncludeKind → Nat
  | .angled => list.angledStart
  | .quoted => 0

/-- Whether the entry at a position is for quoted includes only. -/
def isQuoteOnly (list : SearchList) (index : Nat) : Bool :=
  (list.entries[index]?.map SearchEntry.quoteOnly).getD false

/-- The entries that a lookup of a kind looks into, with their positions, in order. -/
def eligible (list : SearchList) (kind : IncludeKind) : List (SearchEntry × Nat) :=
  (list.entries.zipIdx.drop (list.startOf kind)).filter fun item =>
    kind = .quoted || !item.1.quoteOnly

/-- The entries that an angled include may match, with their positions, in order. -/
def angledEntries (list : SearchList) : List (Nat × SearchEntry) :=
  ((list.entries.mapIdx Prod.mk).drop list.angledStart).filter fun item =>
    !list.isQuoteOnly item.1

/-- The entries that a quoted include may match, with their positions, in order. -/
def quotedEntries (list : SearchList) : List (Nat × SearchEntry) := list.entries.mapIdx Prod.mk

end SearchList

end HeaderSearch
