import HeaderSearch.Report.Item

/-!
# Records of report items

The fields of an item are written in a fixed order, without those that have no value. When an item is
read, fields that are not known do not matter; a field that may have no value may be missing or
`null`. An array of the fields in their order stands for the record.
-/

namespace HeaderSearch

namespace ItemError

/-- The record of an error. -/
def toJson (error : ItemError) : Json :=
  .ofFields [("code", .ofText error.code), ("message", .ofText error.message)]

/-- The error that a record or an array of its two fields is. -/
def ofJson? : Json → Option ItemError
  | .object members => do
    let fields ← Json.fields? members
    let code ← Json.field? fields "code" Json.asText?
    let message ← Json.field? fields "message" Json.asText?
    return { code, message }
  | .array [code, message] => do
    let code ← code.asText?
    let message ← message.asText?
    return { code, message }
  | _ => none

end ItemError

namespace Item

/-- A field with a name, or none without a value. -/
def optionalField (name : String) (value : Option Json) : List (String × Json) :=
  (value.map fun document => (name, document)).toList

/-- The record of an item. -/
def toJson (item : Item) : Json :=
  .ofFields ([("kind", Json.ofText item.kind.name)] ++
    optionalField "name" (item.name.map .ofText) ++
    optionalField "include_kind" (item.includeKind.map fun kind => .ofText kind.name) ++
    optionalField "path" (item.path.map .ofText) ++
    optionalField "search_path" (item.searchPath.map .ofText) ++
    optionalField "relative_path" (item.relativePath.map .ofText) ++
    optionalField "characteristic" (item.characteristic.map fun it => .ofText it.name) ++
    (if item.systemFramework then [("system_framework", .bool true)] else []) ++
    optionalField "line" (item.line.map .ofNat) ++
    optionalField "data" item.data ++
    (if item.errors = [] then [] else [("errors", .array (item.errors.map ItemError.toJson))]))

/-- The bound of a written line number. -/
def lineBound : Nat := UInt32.size

/-- The kind that a document chooses. -/
def kind? (document : Json) : Option ItemKind := document.asChoice?.bind ItemKind.ofName?

/-- The kind of an include that a document chooses. -/
def includeKind? (document : Json) : Option IncludeKind :=
  document.asChoice?.bind IncludeKind.ofName?

/-- A written line number. -/
def line? (document : Json) : Option Nat := document.asNatBelow? lineBound

/-- Written errors. -/
def errors? (document : Json) : Option (List ItemError) := document.asList? ItemError.ofJson?

/-- The item that the fields of a record are. -/
def ofFields? (fields : List (String × Json)) : Option Item := do
  let kind ← Json.field? fields "kind" kind?
  let name ← Json.fieldOr? fields "name" none (Json.asOption? Json.asText?)
  let includeKind ← Json.fieldOr? fields "include_kind" none (Json.asOption? includeKind?)
  let path ← Json.fieldOr? fields "path" none (Json.asOption? Json.asText?)
  let searchPath ← Json.fieldOr? fields "search_path" none (Json.asOption? Json.asText?)
  let relativePath ← Json.fieldOr? fields "relative_path" none (Json.asOption? Json.asText?)
  let characteristic ← Json.fieldOr? fields "characteristic" none
    (Json.asOption? Characteristic.ofJson?)
  let systemFramework ← Json.fieldOr? fields "system_framework" false Json.asBool?
  let line ← Json.fieldOr? fields "line" none (Json.asOption? line?)
  let data ← Json.fieldOr? fields "data" none (Json.asOption? Json.canonical?)
  let errors ← Json.fieldOr? fields "errors" [] errors?
  return { kind, name, includeKind, path, searchPath, relativePath, characteristic,
           systemFramework, line, data, errors }

/-- The names of the fields in their order. -/
def fieldNames : List String :=
  ["kind", "name", "include_kind", "path", "search_path", "relative_path", "characteristic",
    "system_framework", "line", "data", "errors"]

/-- The item that a document is: a record, or an array of its fields, of which the last may be
    missing. -/
def ofJson? : Json → Option Item
  | .object members => do
    let fields ← Json.fields? members
    ofFields? fields
  | .array items =>
    if fieldNames.length ≤ items.length + 1 ∧ items.length ≤ fieldNames.length then
      ofFields? (fieldNames.zip items)
    else none
  | _ => none

end Item

end HeaderSearch
