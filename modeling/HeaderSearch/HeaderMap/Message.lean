import HeaderSearch.HeaderMap.Basic
import HeaderSearch.Wording

/-!
# Messages about header maps

Every failure names the map or the file; one that has an outer cause ends with the words for it.
-/

namespace HeaderSearch.HeaderMap.Error

/-- The words for the outer cause of a failure, if it has one. -/
def cause? (wording : Wording) : Error → Option String
  | .unreadable _ cause => some (wording.unreadable cause)
  | .malformed _ => some wording.malformed
  | .emptyKey _ => none
  | .repeatedKey _ _ => none

/-- The message of a failure. -/
def message (wording : Wording) : Error → String
  | .unreadable path cause =>
    "failed to read header map " ++ path.text ++ ": " ++ wording.unreadable cause
  | .malformed map => "malformed header map " ++ map ++ ": " ++ wording.malformed
  | .emptyKey map => "header map " ++ map ++ " contains an empty key"
  | .repeatedKey map key => "header map " ++ map ++ " maps `" ++ key ++ "` more than once"

end HeaderSearch.HeaderMap.Error
