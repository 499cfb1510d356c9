import HeaderSearch.Config.Document
import HeaderSearch.Proofs.Records

/-!
# Configurations survive writing

The text of a configuration is read as the configuration again: every entry in its place, with the
spelling of its path and all that differs from the default, and the names of the frameworks in their
order. The start of angled includes has to fit into 64 bits, as a larger number is none that a
configuration can have.
-/

namespace HeaderSearch

namespace Location

/-- The member of a location is read as the location. -/
theorem ofField?_member (location : Location) :
    ofField? (location.key, .ofText location.path.text) = some (some location) := by
  cases location <;> simp [ofField?, ofKey?, key, path]

/-- The key of a location names no other field of an entry. -/
theorem key_not_mem_fieldNames (location : Location) :
    location.key ∉ ConfigEntry.fieldNames := by
  cases location <;> simp [key, ConfigEntry.fieldNames]

end Location

namespace ConfigEntry

variable (entry : ConfigEntry)

/-- The fields of an entry that are not its location, without those that have the default. -/
def settingFields : List (String × Json) :=
  [("characteristic", .ofText entry.characteristic.name)] ++
    (if entry.quoteOnly then [("quote_only", .bool true)] else []) ++
    (if entry.indexMap then [("index_map", .bool true)] else []) ++
    (entry.caseRule.map fun rule => ("case_sensitivity", .ofText rule.name)).toList

/-- The fields of an entry: its location, and the others. -/
def allFields : List (String × Json) :=
  (entry.location.key, .ofText entry.location.path.text) :: entry.settingFields

theorem toJson_eq : entry.toJson = .ofFields entry.allFields := by
  obtain ⟨location, characteristic, quoteOnly, indexMap, caseRule⟩ := entry
  cases caseRule <;> rfl

/-- The other fields are named as such, and their values are well written. -/
theorem settingFields_spec {field : String × Json} (there : field ∈ entry.settingFields) :
    field.1 ∈ fieldNames ∧ Json.WellWritten field.2 := by
  simp only [settingFields, List.mem_append, List.mem_singleton, List.mem_ite_nil_right,
    Option.mem_toList, Option.map_eq_some_iff] at there
  obtain ((rfl | ⟨-, rfl⟩) | ⟨-, rfl⟩) | ⟨rule, -, rfl⟩ := there
  · exact ⟨by simp [fieldNames], .ofText _⟩
  · exact ⟨by decide, .bool true⟩
  · exact ⟨by decide, .bool true⟩
  · exact ⟨by simp [fieldNames], .ofText _⟩

/-- The one field of an entry that is not named otherwise is its location. -/
theorem others_eq :
    (entry.allFields.filter fun field => !fieldNames.contains field.1) =
      [(entry.location.key, .ofText entry.location.path.text)] := by
  have held : entry.settingFields.filter (fun field => !fieldNames.contains field.1) = [] := by
    refine List.filter_eq_nil_iff.mpr fun field there => ?_
    simp [(entry.settingFields_spec there).1]
  rw [allFields, List.filter_cons_of_pos (by simp [entry.location.key_not_mem_fieldNames]), held]

/-- The location hides no field that is named otherwise. -/
theorem named_allFields {name : String} (other : name ∈ fieldNames) :
    Json.named entry.allFields name = Json.named entry.settingFields name := by
  have apart : entry.location.key ≠ name :=
    fun same => entry.location.key_not_mem_fieldNames (same ▸ other)
  rw [allFields, Json.named_cons, if_neg apart]

/-- The object of an entry is read as the entry. -/
theorem ofJson?_toJson : ofJson? entry.toJson = some entry := by
  have characteristic : Json.fieldOr? entry.allFields "characteristic" .user
      Characteristic.ofJson? = some entry.characteristic := by
    have there : Json.named entry.allFields "characteristic" =
        [.ofText entry.characteristic.name] := by
      rw [named_allFields entry (by decide)]
      simp [settingFields]
    rw [Json.fieldOr?_of_named _ there]
    simp [Characteristic.ofJson?]
  have quoteOnly : Json.fieldOr? entry.allFields "quote_only" false Json.asBool? =
      some entry.quoteOnly := by
    refine Json.fieldOr?_flag ?_
    rw [named_allFields entry (by decide)]
    simp [settingFields]
  have indexMap : Json.fieldOr? entry.allFields "index_map" false Json.asBool? =
      some entry.indexMap := by
    refine Json.fieldOr?_flag ?_
    rw [named_allFields entry (by decide)]
    simp [settingFields]
  have caseRule : Json.fieldOr? entry.allFields "case_sensitivity" none
      (Json.asOption? caseRule?) = some entry.caseRule := by
    refine Json.fieldOr?_optional (fun rule => .ofText rule.name) ?_ fun rule _ => ?_
    · rw [named_allFields entry (by decide)]
      simp [settingFields]
    · simp [Json.ofText, Json.asOption?, caseRule?, Json.asChoice?]
  have held : (Json.ofText entry.location.path.text).isHeld heldRoom = true := by
    simp [Json.ofText, Json.isHeld]
  rw [toJson_eq, Json.ofFields, ofJson?, Json.fields?_map_member, Option.bind_eq_bind,
    Option.bind_some]
  simp only [others_eq, List.all_cons, List.all_nil, held, characteristic, quoteOnly, indexMap,
    caseRule, List.findSome?_cons, Location.ofField?_member]
  rfl

/-- The object of an entry is well written. -/
theorem wellWritten_toJson : Json.WellWritten entry.toJson := by
  rw [toJson_eq]
  refine .ofFields fun field there => ?_
  obtain rfl | there := List.mem_cons.mp there
  · exact .ofText _
  · exact (entry.settingFields_spec there).2

end ConfigEntry

namespace Config

variable (config : Config)

/-- The fields of a configuration. -/
def allFields : List (String × Json) :=
  [("entries", .array (config.entries.map ConfigEntry.toJson))] ++
    (config.angledStart.map fun position => ("angled_start", .ofNat position)).toList ++
    [("system_frameworks", .array (config.systemFrameworks.map .ofText))]

theorem toJson_eq : config.toJson = .ofFields config.allFields := by
  obtain ⟨entries, angledStart, systemFrameworks⟩ := config
  cases angledStart <;> rfl

/-- The record of a configuration is read as the configuration. -/
theorem ofJson?_toJson (fits : ∀ position ∈ config.angledStart, position < positionBound) :
    ofJson? config.toJson = some config := by
  have entries : Json.fieldOr? config.allFields "entries" [] entries? = some config.entries := by
    rw [Json.fieldOr?_of_named (.array (config.entries.map ConfigEntry.toJson))
      (by simp [allFields])]
    exact Json.asList?_map fun entry _ => entry.ofJson?_toJson
  have angledStart : Json.fieldOr? config.allFields "angled_start" none start? =
      some config.angledStart := by
    refine Json.fieldOr?_optional .ofNat (by simp [allFields]) fun position there => ?_
    have read := Json.asNatBelow?_ofNat (fits position there) (Nat.le_refl _)
    rw [start?, Json.ofNat, Json.asOption?, ← Json.ofNat, read]
    · rfl
    · exact Json.noConfusion
  have systemFrameworks : Json.fieldOr? config.allFields "system_frameworks" [] names? =
      some config.systemFrameworks := by
    rw [Json.fieldOr?_of_named (.array (config.systemFrameworks.map .ofText))
      (by simp [allFields])]
    exact Json.asList?_map fun name _ => Json.asText?_ofText name
  rw [toJson_eq, Json.ofFields, ofJson?, Json.fields?_map_member, Option.bind_eq_bind,
    Option.bind_some]
  simp only [entries, angledStart, systemFrameworks]
  rfl

/-- The record of a configuration is well written. -/
theorem wellWritten_toJson : Json.WellWritten config.toJson := by
  rw [toJson_eq]
  refine .ofFields fun field there => ?_
  simp only [allFields, List.mem_append, List.mem_singleton, Option.mem_toList,
    Option.map_eq_some_iff] at there
  obtain (rfl | ⟨position, -, rfl⟩) | rfl := there
  · refine .array fun document there => ?_
    obtain ⟨entry, -, rfl⟩ := List.mem_map.mp there
    exact entry.wellWritten_toJson
  · exact .ofNat position
  · refine .array fun document there => ?_
    obtain ⟨name, -, rfl⟩ := List.mem_map.mp there
    exact .ofText name

/-- The text of a configuration is read as the configuration, with nothing lost or changed, whether it
    is written on one line or spread over several. -/
theorem ofText?_toText (fits : ∀ position ∈ config.angledStart, position < UInt64.size) :
    ofText? config.toText = some config ∧
      ofText? (config.toJson.toText .indented) = some config := by
  have laidOut (layout : Json.Layout) : ofText? (config.toJson.toText layout) = some config := by
    calc ofText? (config.toJson.toText layout)
        = (Json.parse? (config.toJson.toText layout)).bind ofJson? := rfl
      _ = ofJson? config.toJson := by
          rw [Json.parse?_toText layout config.wellWritten_toJson, Option.bind_some]
      _ = some config := config.ofJson?_toJson fits
  exact ⟨laidOut .compact, laidOut .indented⟩

/-- A configuration with all three sorts of locations, with quotes, backslashes, control characters and
    letters of other scripts in its paths and names, with empty ones among them, and with the greatest
    start of angled includes that fits. -/
def motley : Config where
  entries := [
    { location := .directory ⟨"a \"b\"\\c\n\u0001/é😀"⟩, quoteOnly := true },
    { location := .framework ⟨""⟩, characteristic := .system },
    { location := .headerMap ⟨"\u007f\u2028.hmap"⟩, characteristic := .externCSystem,
      indexMap := true, caseRule := some .sensitive },
    { location := .directory ⟨"directory"⟩, caseRule := some .insensitive }]
  angledStart := some (UInt64.size - 1)
  systemFrameworks := ["", "\t\"null\"", "Ünï"]

theorem ofText?_toText_motley :
    (∀ position ∈ motley.angledStart, position < UInt64.size) ∧
      ofText? motley.toText = some motley ∧
      ofText? (motley.toJson.toText .indented) = some motley := by
  have fits : ∀ position ∈ motley.angledStart, position < UInt64.size := by
    intro position there
    obtain rfl : UInt64.size - 1 = position := Option.some.inj there
    decide
  exact ⟨fits, motley.ofText?_toText fits⟩

end Config

end HeaderSearch
