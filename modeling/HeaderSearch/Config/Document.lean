import HeaderSearch.Config.Basic
import HeaderSearch.Json.Printer

/-!
# Documents of configurations

A configuration is written as a record, and each entry as an object whose location has a member of its
own: `directory`, `framework` or `header-map`. Members that are not known are skipped. Those of the
configuration are not looked at; those of an entry are held until the location is picked out, so
they have to denote values, and the first of them that names a location is the one that counts.
-/

namespace HeaderSearch

namespace Location

/-- The key of a location's member. -/
def key : Location → String
  | directory _ => "directory"
  | framework _ => "framework"
  | headerMap _ => "header-map"

/-- What the key of a location's member makes of a path. -/
def ofKey? (key : String) : Option (Path → Location) :=
  if key = "directory" then some directory
  else if key = "framework" then some framework
  else if key = "header-map" then some headerMap
  else none

/-- The location that a member is, if its key names one. The outer option is `none` for another key,
    and the inner one for a value that is no path. -/
def ofField? (field : String × Json) : Option (Option Location) :=
  (ofKey? field.1).map fun make => field.2.asText?.map fun text => make ⟨text⟩

end Location

namespace ConfigEntry

/-- The names of the members that are not the location. -/
def fieldNames : List String := ["characteristic", "quote_only", "index_map", "case_sensitivity"]

/-- How deep the members of an entry that are held may be nested: the configuration, its list of
    entries and the entry are around them. -/
def heldRoom : Nat := Json.nestingLimit - 3

/-- The rule of comparison that a document chooses. -/
def caseRule? (document : Json) : Option CaseRule :=
  document.asChoice?.bind CaseRule.ofName?

/-- The entry that an object is. -/
def ofJson? : Json → Option ConfigEntry
  | .object members => do
    let fields ← Json.fields? members
    let others := fields.filter fun field => !fieldNames.contains field.1
    if !others.all fun field => field.2.isHeld heldRoom then none
    let characteristic ← Json.fieldOr? fields "characteristic" .user Characteristic.ofJson?
    let quoteOnly ← Json.fieldOr? fields "quote_only" false Json.asBool?
    let indexMap ← Json.fieldOr? fields "index_map" false Json.asBool?
    let caseRule ← Json.fieldOr? fields "case_sensitivity" none (Json.asOption? caseRule?)
    let location ← (← others.findSome? Location.ofField?)
    return { location, characteristic, quoteOnly, indexMap, caseRule }
  | _ => none

/-- The object of an entry: the location, the characteristic, and what differs from the default. -/
def toJson (entry : ConfigEntry) : Json :=
  .ofFields ([(entry.location.key, .ofText entry.location.path.text),
      ("characteristic", .ofText entry.characteristic.name)] ++
    (if entry.quoteOnly then [("quote_only", .bool true)] else []) ++
    (if entry.indexMap then [("index_map", .bool true)] else []) ++
    match entry.caseRule with
    | none => []
    | some rule => [("case_sensitivity", .ofText rule.name)])

end ConfigEntry

namespace Config

/-- The bound of a written position. -/
def positionBound : Nat := UInt64.size

/-- A written list of entries. -/
def entries? (document : Json) : Option (List ConfigEntry) := document.asList? ConfigEntry.ofJson?

/-- A written start of angled includes, `null` for none. -/
def start? (document : Json) : Option (Option Nat) :=
  document.asOption? (Json.asNatBelow? positionBound)

/-- A written list of framework names. -/
def names? (document : Json) : Option (List String) := document.asList? Json.asText?

/-- The configuration that a record is. Every field may be missing. An array of the first fields
    stands for the record. -/
def ofJson? : Json → Option Config
  | .object members => do
    let fields ← Json.fields? members
    let entries ← Json.fieldOr? fields "entries" [] entries?
    let angledStart ← Json.fieldOr? fields "angled_start" none start?
    let systemFrameworks ← Json.fieldOr? fields "system_frameworks" [] names?
    return { entries, angledStart, systemFrameworks }
  | .array [] => some {}
  | .array [first] => do
    let entries ← entries? first
    return { entries }
  | .array [first, second] => do
    let entries ← entries? first
    let angledStart ← start? second
    return { entries, angledStart }
  | .array [first, second, third] => do
    let entries ← entries? first
    let angledStart ← start? second
    let systemFrameworks ← names? third
    return { entries, angledStart, systemFrameworks }
  | _ => none

/-- The record of a configuration. -/
def toJson (config : Config) : Json :=
  .ofFields ([("entries", .array (config.entries.map ConfigEntry.toJson))] ++
    (match config.angledStart with
      | none => []
      | some position => [("angled_start", .ofNat position)]) ++
    [("system_frameworks", .array (config.systemFrameworks.map .ofText))])

/-- The configuration that a text is. -/
def ofText? (text : String) : Option Config := (Json.parse? text).bind ofJson?

/-- The text of a configuration. -/
def toText (config : Config) : String := config.toJson.compact

end Config

end HeaderSearch
