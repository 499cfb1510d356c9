import HeaderSearch.Json.Text
import HeaderSearch.Json.Number
import HeaderSearch.SortedPairs

/-!
# Values of JSON documents

A document that is held as a value has to denote one throughout: every string and key a text, every
number a number in range, and arrays and objects nested to a bounded depth. `canonical?` is the form
in which such a value is written: keys in ascending order, the last of repeated members, texts and
numbers in their one written form.
-/

namespace HeaderSearch.Json

/-- How deep arrays and objects may be nested in a document that is held. -/
def nestingLimit : Nat := 127

mutual

/-- Whether a document denotes a value with at most `room` levels of nesting. -/
def isHeld (room : Nat) : Json → Bool
  | .null => true
  | .bool _ => true
  | .number literal => (Number.ofLiteral? literal).isSome
  | .string body => (text? body).isSome
  | .array items =>
    match room with
    | 0 => false
    | inner + 1 => areHeld inner items
  | .object members =>
    match room with
    | 0 => false
    | inner + 1 => membersHeld inner members

/-- Whether all items denote values. -/
def areHeld (room : Nat) : List Json → Bool
  | [] => true
  | item :: others => isHeld room item && areHeld room others

/-- Whether all keys denote texts and all members denote values. -/
def membersHeld (room : Nat) : List (String × Json) → Bool
  | [] => true
  | (key, value) :: others => (text? key).isSome && isHeld room value && membersHeld room others

end

mutual

/-- The canonical form of a document that denotes a value. -/
def canonical? : Json → Option Json
  | .null => some .null
  | .bool value => some (.bool value)
  | .number literal => (Number.ofLiteral? literal).map fun number => .number number.toLiteral
  | .string body => (text? body).map ofText
  | .array items => (canonicalItems? items).map .array
  | .object members => (canonicalMembers? members).map fun fields =>
    .object ((SortedPairs.ofList fields).map fun (key, value) => (escape key, value))

/-- The canonical forms of items. -/
def canonicalItems? : List Json → Option (List Json)
  | [] => some []
  | item :: others => do
    let first ← canonical? item
    let rest ← canonicalItems? others
    return first :: rest

/-- The texts of keys with the canonical forms of their values. -/
def canonicalMembers? : List (String × Json) → Option (List (String × Json))
  | [] => some []
  | (key, value) :: others => do
    let name ← text? key
    let first ← canonical? value
    let rest ← canonicalMembers? others
    return (name, first) :: rest

end

/-- The text that a string denotes. -/
def asText? : Json → Option String
  | .string body => text? body
  | _ => none

/-- The truth value that a document is. -/
def asBool? : Json → Option Bool
  | .bool value => some value
  | _ => none

/-- The natural number below `bound` that a numeral denotes. -/
def asNatBelow? (bound : Nat) : Json → Option Nat
  | .number literal =>
    match Number.ofLiteral? literal with
    | some (.natural n) => if n < bound then some n else none
    | _ => none
  | _ => none

/-- The items of an array, each read by `read`. -/
def asList? {α : Type} (read : Json → Option α) : Json → Option (List α)
  | .array items => items.mapM read
  | _ => none

/-- Nothing for `null`, and otherwise what `read` makes of the document. -/
def asOption? {α : Type} (read : Json → Option α) : Json → Option (Option α)
  | .null => some none
  | document => (read document).map some

/-- The word that a document without further content chooses: a string, or an object whose one member
    has the word as its key and `null` as its value. -/
def asChoice? : Json → Option String
  | .string body => text? body
  | .object [(key, .null)] => text? key
  | _ => none

end HeaderSearch.Json
