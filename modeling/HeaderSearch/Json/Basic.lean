/-!
# JSON documents

A document is kept as it is written: a string as the characters between its quotes, with the escapes
in place, and a number as its digits. What a string or a number denotes is asked for only where the
value is used, because a member that is skipped need not denote anything. Members of an object stay
in their order, repeated keys included.
-/

namespace HeaderSearch

/-- A JSON document as it is written. -/
inductive Json where
  /-- The word `null`. -/
  | null
  /-- The word `true` or `false`. -/
  | bool (value : Bool)
  /-- A number, by its characters. -/
  | number (literal : String)
  /-- A string, by the characters between its quotes. -/
  | string (body : String)
  /-- An array with its items. -/
  | array (items : List Json)
  /-- An object with the written form of each key and its value. -/
  | object (members : List (String × Json))
deriving Repr, Inhabited

end HeaderSearch
