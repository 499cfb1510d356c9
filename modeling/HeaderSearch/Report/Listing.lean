import HeaderSearch.Report.Item
import HeaderSearch.SearchList.Fingerprint

/-!
# Reports of search lists

A search list is reported with one item for each entry, in order, and one item that sums it up.
-/

namespace HeaderSearch.SearchList

/-- The item of the entry at a position. -/
def entryItem (list : SearchList) (index : Nat) (entry : SearchEntry) : Item :=
  { Item.entry entry.place.name entry.characteristic with
    data := some (.ofSortedFields [
      ("index", .ofNat index),
      ("lookup_type", .ofText entry.place.sort),
      ("quote_only", .bool entry.quoteOnly),
      ("angled", .bool (list.angledStart ≤ index && !entry.quoteOnly)),
      ("index_map", .bool entry.place.isIndexMap)]) }

/-- The item that sums the list up. -/
def summaryItem (list : SearchList) : Item :=
  .stats (.ofSortedFields [
    ("entries", .ofNat list.size),
    ("angled_start", .ofNat list.angledStart),
    ("system_frameworks", .array (list.systemFrameworks.map .ofText)),
    ("fingerprint", .ofText list.fingerprint)])

/-- The report of a search list. -/
def listing (list : SearchList) : List Item :=
  list.entries.mapIdx list.entryItem ++ [list.summaryItem]

end HeaderSearch.SearchList
