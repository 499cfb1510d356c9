import HeaderSearch.Json.Value

/-!
# Records in JSON documents

A record is written as an object, its fields by name in any order. No field may be there twice. What
happens to a key that names no field is up to the reader of the record.
-/

namespace HeaderSearch.Json

/-- The members of an object with the texts of their keys, or `none` if a key denotes no text. -/
def fields? (members : List (String × Json)) : Option (List (String × Json)) :=
  members.mapM fun (key, value) => (text? key).map (·, value)

/-- The values of the fields with a name. -/
def named (fields : List (String × Json)) (name : String) : List Json :=
  (fields.filter fun field => field.1 = name).map Prod.snd

/-- Reads the field with a name. A field that is not there has the given value. -/
def fieldOr? {α : Type} (fields : List (String × Json)) (name : String) (absent : α)
    (read : Json → Option α) : Option α :=
  match named fields name with
  | [] => some absent
  | [value] => read value
  | _ => none

/-- Reads the field with a name, which has to be there. -/
def field? {α : Type} (fields : List (String × Json)) (name : String) (read : Json → Option α) :
    Option α :=
  match named fields name with
  | [value] => read value
  | _ => none

/-- A member with its key in its written form. -/
def member (name : String) (value : Json) : String × Json := (escape name, value)

/-- The object with the given fields. -/
def ofFields (fields : List (String × Json)) : Json :=
  .object (fields.map fun (name, value) => member name value)

/-- The object with the given fields in ascending order of their names. -/
def ofSortedFields (fields : List (String × Json)) : Json :=
  ofFields (SortedPairs.ofList fields)

end HeaderSearch.Json
