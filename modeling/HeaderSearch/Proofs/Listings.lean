import HeaderSearch.Proofs.Enumerations
import HeaderSearch.Proofs.Records
import HeaderSearch.Proofs.Sorting
import HeaderSearch.Report.Listing

/-!
# What a listing tells

The listing of a search list has one item for each entry, in order, and one more that sums the list up. An
item is read by the names of its data: it tells the position of its entry, where the entry looks and
for whom, and so whether angled includes look there.
-/

namespace HeaderSearch

/-- The value of the member of an object whose key denotes a name. -/
def Json.memberValue? (document : Json) (name : String) : Option Json :=
  match document with
  | .object members => (members.find? fun member => text? member.1 = some name).map Prod.snd
  | _ => none

/-- An object with sorted fields has under a name what the last field with the name holds. -/
theorem Json.memberValue?_ofSortedFields (fields : List (String × Json)) (name : String) :
    (ofSortedFields fields).memberValue? name =
      (fields.reverse.find? fun field => field.1 = name).map Prod.snd := by
  rw [ofSortedFields, ofFields, memberValue?, List.find?_map, Option.map_map,
    ← SortedPairs.find?_ofList]
  have named (field : String × Json) :
      decide (text? (member field.1 field.2).1 = some name) = decide (field.1 = name) := by
    apply decide_eq_decide.2
    rw [member, text?_escape, Option.some_inj]
  simp only [Function.comp_def, named]
  rfl

/-- The further content of an item under a name. -/
def Item.datum? (item : Item) (name : String) : Option Json := item.data.bind (·.memberValue? name)

namespace SearchList

variable (list : SearchList) {index : Nat} {entry : SearchEntry}

/-- The listing marks the entry at a position as one that angled includes look into. -/
def MarksAngled (index : Nat) : Prop :=
  ∃ item, list.listing[index]? = some item ∧ item.datum? "angled" = some (.bool true)

/-- The listing has one item for each entry and one more. -/
theorem length_listing : list.listing.length = list.size + 1 := by
  rw [listing, List.length_append, List.length_mapIdx, List.length_singleton, size]

/-- The item of an entry is at the position of the entry. -/
theorem listing_at (here : list.entries[index]? = some entry) :
    list.listing[index]? = some (list.entryItem index entry) := by
  have inside : index < (list.entries.mapIdx list.entryItem).length := by
    rw [List.length_mapIdx]
    exact (List.getElem?_eq_some_iff.1 here).1
  rw [listing, List.getElem?_append_left inside, List.getElem?_mapIdx, here]
  rfl

/-- The item that sums the list up comes after all entries. -/
theorem listing_last : list.listing[list.size]? = some list.summaryItem := by
  have past : (list.entries.mapIdx list.entryItem).length ≤ list.size := by
    rw [List.length_mapIdx, size]
  rw [listing, List.getElem?_append_right past, List.length_mapIdx, size, Nat.sub_self]
  rfl

/-- What the item of an entry tells. -/
theorem datum?_entryItem (here : list.entries[index]? = some entry) :
    (list.entryItem index entry).datum? "index" = some (.ofNat index) ∧
      (list.entryItem index entry).datum? "lookup_type" = some (.ofText entry.place.sort) ∧
      (list.entryItem index entry).datum? "quote_only" = some (.bool (list.isQuoteOnly index)) ∧
      (list.entryItem index entry).datum? "angled" =
        some (.bool (list.looksInto .angled index)) ∧
      (list.entryItem index entry).datum? "index_map" = some (.bool entry.place.isIndexMap) := by
  simp only [Item.datum?, entryItem, Option.bind_some, Json.memberValue?_ofSortedFields,
    looksInto, list.isQuoteOnly_at here]
  simp

/-- What the item that sums the list up tells. It has no mark for angled includes. -/
theorem datum?_summaryItem :
    list.summaryItem.datum? "entries" = some (.ofNat list.size) ∧
      list.summaryItem.datum? "angled_start" = some (.ofNat list.angledStart) ∧
      list.summaryItem.datum? "system_frameworks" =
        some (.array (list.systemFrameworks.map .ofText)) ∧
      list.summaryItem.datum? "angled" = none := by
  simp only [Item.datum?, summaryItem, Item.stats, Option.bind_some, Json.memberValue?_ofSortedFields]
  simp

/-- The listing marks exactly the entries that angled includes look into. -/
theorem marksAngled_iff :
    list.MarksAngled index ↔ index < list.size ∧ list.looksInto .angled index = true := by
  constructor
  · rintro ⟨item, there, marked⟩
    by_cases inside : index < list.size
    · have here : list.entries[index]? = some list.entries[index] := List.getElem?_eq_getElem inside
      obtain rfl : list.entryItem index list.entries[index] = item :=
        Option.some.inj ((list.listing_at here).symm.trans there)
      rw [(list.datum?_entryItem here).2.2.2.1] at marked
      exact ⟨inside, Json.bool.inj (Option.some.inj marked)⟩
    · have last : index = list.size := by
        have bound : index < list.listing.length := (List.getElem?_eq_some_iff.1 there).1
        rw [length_listing] at bound
        omega
      subst last
      obtain rfl : list.summaryItem = item := Option.some.inj (list.listing_last.symm.trans there)
      rw [list.datum?_summaryItem.2.2.2] at marked
      cases marked
  · rintro ⟨inside, looks⟩
    have here : list.entries[index]? = some list.entries[index] := List.getElem?_eq_getElem inside
    refine ⟨list.entryItem index list.entries[index], list.listing_at here, ?_⟩
    rw [(list.datum?_entryItem here).2.2.2.1, looks]

/-- An item lists the entry at a position. -/
structure Lists (list : SearchList) (index : Nat) (entry : SearchEntry) (item : Item) : Prop where
  kind : item.kind = .entry
  name : item.name = some entry.place.name
  characteristic : item.characteristic = some entry.characteristic
  position : item.datum? "index" = some (.ofNat index)
  lookupType : item.datum? "lookup_type" = some (.ofText entry.place.sort)
  quoteOnly : item.datum? "quote_only" = some (.bool (list.isQuoteOnly index))
  indexMap : item.datum? "index_map" = some (.bool entry.place.isIndexMap)

/-- An item sums a list up. -/
structure SumsUp (list : SearchList) (item : Item) : Prop where
  kind : item.kind = .stats
  entries : item.datum? "entries" = some (.ofNat list.size)
  angledStart : item.datum? "angled_start" = some (.ofNat list.angledStart)
  systemFrameworks : item.datum? "system_frameworks" =
    some (.array (list.systemFrameworks.map .ofText))

/-- Items list a search list completely: there is one for each entry, at the position of the entry and
    telling whether angled includes look there, and one more, which sums the list up. -/
structure IsListedBy (list : SearchList) (items : List Item) : Prop where
  length : items.length = list.size + 1
  each {index : Nat} {entry : SearchEntry} (here : list.entries[index]? = some entry) :
    ∃ item, items[index]? = some item ∧ list.Lists index entry item ∧
      item.datum? "angled" = some (.bool (list.looksInto .angled index))
  last : ∃ item, items[list.size]? = some item ∧ list.SumsUp item

/-- The listing lists the search list completely. -/
theorem isListedBy_listing : list.IsListedBy list.listing where
  length := list.length_listing
  each here := by
    obtain ⟨position, lookupType, quoteOnly, angled, indexMap⟩ := list.datum?_entryItem here
    exact ⟨_, list.listing_at here, ⟨rfl, rfl, rfl, position, lookupType, quoteOnly, indexMap⟩, angled⟩
  last := by
    obtain ⟨entries, angledStart, frameworks, -⟩ := list.datum?_summaryItem
    exact ⟨_, list.listing_last, ⟨rfl, entries, angledStart, frameworks⟩⟩

end SearchList

end HeaderSearch
