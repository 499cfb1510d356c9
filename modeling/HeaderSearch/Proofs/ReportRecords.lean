import HeaderSearch.Proofs.Records
import HeaderSearch.Report.Record

/-!
# Records of report items survive writing

An item is read back from its record in every field, whatever texts it has. Fields without value were
left out and are read as such. Two things have to hold of the item: its line number is below the bound
of line numbers, and its further content is a settled document, one that is already in the form that
reading gives it.
-/

namespace HeaderSearch

namespace Json

/-- The documents that an item may have as further content: truth values, natural numbers of 64 bits,
    texts, lists of such documents, and records of such in the order of their keys. -/
inductive Settled : Json → Prop where
  | bool (value : Bool) : Settled (.bool value)
  | natural {n : Nat} (fits : n < UInt64.size) : Settled (.ofNat n)
  | text (text : String) : Settled (.ofText text)
  | list {items : List Json} (each : ∀ item ∈ items, Settled item) : Settled (.array items)
  | record {fields : List (String × Json)} (each : ∀ field ∈ fields, Settled field.2) :
      Settled (.ofSortedFields fields)

/-- Items in canonical form stay as they are. -/
theorem canonicalItems?_self {items : List Json}
    (each : ∀ item ∈ items, canonical? item = some item) :
    canonicalItems? items = some items := by
  induction items with
  | nil => rfl
  | cons item items inductionHypothesis =>
    rw [canonicalItems?, each item List.mem_cons_self,
      inductionHypothesis fun other there => each other (List.mem_cons_of_mem _ there)]
    rfl

/-- The members of a record have the names of its fields, and values in canonical form stay as they
    are. -/
theorem canonicalMembers?_map_member {fields : List (String × Json)}
    (each : ∀ field ∈ fields, canonical? field.2 = some field.2) :
    canonicalMembers? (fields.map fun (name, value) => member name value) = some fields := by
  induction fields with
  | nil => rfl
  | cons field fields inductionHypothesis =>
    have rest := inductionHypothesis fun other there => each other (List.mem_cons_of_mem _ there)
    have name := text?_escape field.1
    have value := each field List.mem_cons_self
    simp only [member] at rest ⊢
    simp only [List.map_cons, canonicalMembers?, name, value, rest]
    rfl

namespace Settled

/-- A settled document is in canonical form: reading gives it back unchanged. -/
theorem canonical {document : Json} (settled : Settled document) :
    canonical? document = some document := by
  induction settled with
  | bool value => rw [canonical?]
  | natural fits =>
    rw [ofNat, canonical?, ofLiteral?_natural fits]
    rfl
  | text text =>
    rw [ofText, canonical?, text?_escape]
    rfl
  | list _ inductionHypothesis =>
    rw [canonical?, canonicalItems?_self inductionHypothesis]
    rfl
  | @record fields _ inductionHypothesis =>
    have sorted : ∀ field ∈ SortedPairs.ofList fields, canonical? field.2 = some field.2 :=
      fun field there => inductionHypothesis field (SortedPairs.mem_of_mem_ofList there)
    rw [ofSortedFields, ofFields, canonical?, canonicalMembers?_map_member sorted,
      Option.map_some, SortedPairs.ofList_ofList]
    rfl

/-- A settled document is well written. -/
theorem wellWritten {document : Json} (settled : Settled document) : WellWritten document := by
  induction settled with
  | bool value => exact .bool value
  | natural _ => exact .ofNat _
  | text text => exact .ofText text
  | list _ inductionHypothesis => exact .array inductionHypothesis
  | record _ inductionHypothesis =>
    exact .ofFields fun field there =>
      inductionHypothesis field (SortedPairs.mem_of_mem_ofList there)

/-- A settled document is not the one that stands for no content. -/
theorem asOption?_canonical {document : Json} (settled : Settled document) :
    asOption? canonical? document = some (some document) := by
  have content := settled.canonical
  cases settled <;> exact congrArg (Option.map some) content

end Settled

end Json

namespace ItemError

/-- The record of an error is read as the error. -/
theorem ofJson?_toJson (error : ItemError) : ofJson? error.toJson = some error := by
  rw [toJson, Json.ofFields, ofJson?, Json.fields?_map_member]
  simp [Json.field?]

/-- The record of an error is well written. -/
theorem wellWritten_toJson (error : ItemError) : Json.WellWritten error.toJson := by
  refine .ofFields fun field there => ?_
  rw [List.mem_cons, List.mem_singleton] at there
  rcases there with rfl | rfl <;> exact .ofText _

end ItemError

namespace Item

/-- What has to hold of an item that is to be written and read. -/
structure Writable (item : Item) : Prop where
  /-- The line number is below the bound. -/
  line : ∀ line ∈ item.line, line < lineBound
  /-- The further content is in the form that reading gives it. -/
  data : ∀ document ∈ item.data, Json.Settled document

/-- A field counts under its name if it has a value. -/
@[simp] theorem named_optionalField {name other : String} {value : Option Json} :
    Json.named (optionalField other value) name = if other = name then value.toList else [] := by
  cases value <;> simp [optionalField]

variable (item : Item)

/-- The fields of an item, in the order in which they are written. -/
def allFields : List (String × Json) :=
  [("kind", Json.ofText item.kind.name)] ++
    optionalField "name" (item.name.map .ofText) ++
    optionalField "include_kind" (item.includeKind.map fun kind => .ofText kind.name) ++
    optionalField "path" (item.path.map .ofText) ++
    optionalField "search_path" (item.searchPath.map .ofText) ++
    optionalField "relative_path" (item.relativePath.map .ofText) ++
    optionalField "characteristic" (item.characteristic.map fun it => .ofText it.name) ++
    (if item.systemFramework then [("system_framework", .bool true)] else []) ++
    optionalField "line" (item.line.map .ofNat) ++
    optionalField "data" item.data ++
    (if item.errors = [] then [] else [("errors", .array (item.errors.map ItemError.toJson))])

theorem toJson_eq : item.toJson = .ofFields item.allFields := rfl

/-- A text that may be missing is read back. -/
theorem fieldOr?_text {fields : List (String × Json)} {name : String} {content : Option String}
    (there : Json.named fields name = (content.map Json.ofText).toList) :
    Json.fieldOr? fields name none (Json.asOption? Json.asText?) = some content := by
  refine Json.fieldOr?_optional _ there fun text _ => ?_
  exact congrArg (Option.map some) (Json.asText?_ofText text)

/-- The fields of an item are read as the item. -/
theorem ofFields?_allFields (writable : item.Writable) : ofFields? item.allFields = some item := by
  have kind : Json.field? item.allFields "kind" kind? = some item.kind := by
    rw [Json.field?_of_named (.ofText item.kind.name) (by simp [allFields])]
    simp [kind?]
  have name : Json.fieldOr? item.allFields "name" none
      (Json.asOption? Json.asText?) = some item.name := fieldOr?_text (by simp [allFields])
  have includeKind : Json.fieldOr? item.allFields "include_kind" none
      (Json.asOption? includeKind?) = some item.includeKind := by
    refine Json.fieldOr?_optional (fun kind => .ofText kind.name) (by simp [allFields])
      fun kind _ => ?_
    simp [Json.ofText, Json.asOption?, includeKind?, Json.asChoice?]
  have path : Json.fieldOr? item.allFields "path" none
      (Json.asOption? Json.asText?) = some item.path := fieldOr?_text (by simp [allFields])
  have searchPath : Json.fieldOr? item.allFields "search_path" none
      (Json.asOption? Json.asText?) = some item.searchPath :=
    fieldOr?_text (by simp [allFields])
  have relativePath : Json.fieldOr? item.allFields "relative_path" none
      (Json.asOption? Json.asText?) = some item.relativePath :=
    fieldOr?_text (by simp [allFields])
  have characteristic : Json.fieldOr? item.allFields "characteristic" none
      (Json.asOption? Characteristic.ofJson?) = some item.characteristic := by
    refine Json.fieldOr?_optional (fun it => .ofText it.name) (by simp [allFields])
      fun it _ => ?_
    simp [Json.ofText, Json.asOption?, Characteristic.ofJson?, Json.asChoice?]
  have systemFramework : Json.fieldOr? item.allFields "system_framework" false Json.asBool? =
      some item.systemFramework := Json.fieldOr?_flag (by simp [allFields])
  have line : Json.fieldOr? item.allFields "line" none (Json.asOption? line?) =
      some item.line := by
    refine Json.fieldOr?_optional .ofNat (by simp [allFields]) fun line there => ?_
    exact congrArg (Option.map some)
      (Json.asNatBelow?_ofNat (writable.line line there) (by decide))
  have data : Json.fieldOr? item.allFields "data" none (Json.asOption? Json.canonical?) =
      some item.data := by
    refine Json.fieldOr?_optional id (by simp [allFields]) fun document there => ?_
    exact (writable.data document there).asOption?_canonical
  have errors : Json.fieldOr? item.allFields "errors" [] errors? = some item.errors := by
    refine Json.fieldOr?_list ItemError.toJson (by simp [allFields]) fun error _ => ?_
    exact error.ofJson?_toJson
  simp only [ofFields?, kind, name, includeKind, path, searchPath, relativePath, characteristic,
    systemFramework, line, data, errors]
  rfl

/-- The record of an item is read as the item. -/
theorem ofJson?_toJson (writable : item.Writable) : ofJson? item.toJson = some item := by
  rw [toJson_eq, Json.ofFields, ofJson?, Json.fields?_map_member, Option.bind_eq_bind,
    Option.bind_some, item.ofFields?_allFields writable]

/-- A field that is there with a value is well written if the value is. -/
theorem wellWritten_optionalField {name : String} {value : Option Json}
    (each : ∀ document ∈ value, Json.WellWritten document) :
    ∀ field ∈ optionalField name value, Json.WellWritten field.2 := by
  intro field there
  obtain ⟨document, here, rfl⟩ := Option.map_eq_some_iff.mp (Option.mem_toList.mp there)
  exact each document here

/-- A field that is there with a text is well written. -/
theorem wellWritten_optionalText {α : Type} {name : String} {content : Option α}
    (write : α → String) :
    ∀ field ∈ optionalField name (content.map fun value => .ofText (write value)),
      Json.WellWritten field.2 := by
  refine wellWritten_optionalField fun document there => ?_
  obtain ⟨value, -, rfl⟩ := Option.map_eq_some_iff.mp there
  exact .ofText _

/-- The record of an item is well written. -/
theorem wellWritten_toJson (writable : item.Writable) : Json.WellWritten item.toJson := by
  rw [toJson_eq]
  refine .ofFields ?_
  simp only [allFields, List.forall_mem_append]
  refine ⟨⟨⟨⟨⟨⟨⟨⟨⟨⟨?kind, ?name⟩, ?includeKind⟩, ?path⟩, ?searchPath⟩, ?relativePath⟩,
    ?characteristic⟩, ?systemFramework⟩, ?line⟩, ?data⟩, ?errors⟩
  case kind => exact fun field there => List.mem_singleton.mp there ▸ .ofText _
  case name | path | searchPath | relativePath => exact wellWritten_optionalText id
  case includeKind | characteristic => exact wellWritten_optionalText _
  case systemFramework =>
    intro field there
    obtain ⟨-, rfl⟩ := List.mem_ite_nil_right.mp there |>.imp_right List.mem_singleton.mp
    exact .bool true
  case line =>
    refine wellWritten_optionalField fun document there => ?_
    obtain ⟨line, -, rfl⟩ := Option.map_eq_some_iff.mp there
    exact .ofNat line
  case data => exact wellWritten_optionalField fun document there =>
    (writable.data document there).wellWritten
  case errors =>
    intro field there
    obtain ⟨-, rfl⟩ := List.mem_ite_nil_left.mp there |>.imp_right List.mem_singleton.mp
    refine .array fun document inside => ?_
    obtain ⟨error, -, rfl⟩ := List.mem_map.mp inside
    exact error.wellWritten_toJson

end Item

end HeaderSearch
