import HeaderSearch.Digest
import HeaderSearch.Numeral.Decimal
import HeaderSearch.SearchList.Basic

/-!
# Fingerprints of search lists

The fingerprint is the digest of a text that has a row for each entry, one for the start of angled
includes, and one for each system framework. It tells whether the order, the characteristics or the
flags of a configured search have changed.
-/

namespace HeaderSearch

/-- The word for a truth value. -/
def SearchEntry.flagWord (flag : Bool) : String := if flag then "true" else "false"

/-- The row of an entry. -/
def SearchEntry.fingerprintRow (entry : SearchEntry) : String :=
  "|".intercalate [entry.place.shortSort, entry.place.name, entry.characteristic.name,
    flagWord entry.quoteOnly, flagWord entry.place.isIndexMap] ++ "\n"

namespace SearchList

/-- The text whose digest is the fingerprint. -/
def fingerprintText (list : SearchList) : String :=
  String.join (list.entries.map SearchEntry.fingerprintRow) ++
    "angled-start=" ++ Decimal.text list.angledStart ++ "\n" ++
    String.join (list.systemFrameworks.map fun name => "system-framework=" ++ name ++ "\n")

/-- The fingerprint of a search list. -/
def fingerprint (list : SearchList) : String := Digest.hex list.fingerprintText

end SearchList

end HeaderSearch
