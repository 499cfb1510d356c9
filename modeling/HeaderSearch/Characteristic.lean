import HeaderSearch.Json.Value

/-!
# Characteristics of search locations

Every search location is classified, and whatever is found through it carries the classification.
-/

namespace HeaderSearch

/-- The classification of a search location. -/
inductive Characteristic where
  /-- A location of the user's own headers. -/
  | user
  /-- A location of system headers. -/
  | system
  /-- A location of system headers that are C even when a C++ file includes them. -/
  | externCSystem
deriving DecidableEq, Repr, Inhabited

namespace Characteristic

/-- The word for a classification. -/
def name : Characteristic → String
  | user => "user"
  | system => "system"
  | externCSystem => "extern-c-system"

/-- The classification that a word stands for. -/
def ofName? (word : String) : Option Characteristic :=
  if word = "user" then some user
  else if word = "system" then some system
  else if word = "extern-c-system" then some externCSystem
  else none

/-- The classification that a document chooses. -/
def ofJson? (document : Json) : Option Characteristic := document.asChoice?.bind ofName?

/-- Whether a classification is one of the two for system headers. -/
def isSystem : Characteristic → Bool
  | user => false
  | system => true
  | externCSystem => true

@[simp] theorem ofName?_name (characteristic : Characteristic) :
    ofName? characteristic.name = some characteristic := by
  cases characteristic <;> rfl

end Characteristic

end HeaderSearch
