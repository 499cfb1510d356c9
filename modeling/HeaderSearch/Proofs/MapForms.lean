import Mathlib.Data.List.Nodup
import Mathlib.Data.Option.Basic
import HeaderSearch.Proofs.Records
import HeaderSearch.Proofs.WrittenMaps

/-!
# The two forms of a header map

A header map is written as a flat object from keys to paths, or in a detailed form: a record, or an array
with the fields of the record in order. Both forms are described here by what a document has to look like,
without any reading. A document in the detailed form has an object where the flat form has a path, so no
document has both forms, and it does not matter which form is tried first.
-/

namespace HeaderSearch

namespace HeaderMap

namespace Declaration

/-- A document has the flat form: it is an object from keys to paths. -/
def IsFlat (document : Json) : Prop :=
  ∃ members entries, document = .object members ∧ List.Forall₂ Spells members entries

/-- A document declares a rule of comparison, or leaves it open. -/
def IsRule (document : Json) : Prop := document = .null ∨ ∃ sensitive, document = .bool sensitive

/-- A document says whether a map is an index map. -/
def IsMark (document : Json) : Prop := ∃ isIndex, document = .bool isIndex

/-- A field is one of the detailed form, and its value is of the sort that this field holds. -/
def IsKnown (field : String × Json) : Prop :=
  field.1 = "case_sensitive" ∧ IsRule field.2 ∨ field.1 = "index" ∧ IsMark field.2 ∨
    field.1 = "entries" ∧ IsFlat field.2

/-- A document has the detailed form: it is a record with known fields, none of them twice and the entries
    among them, or an array of all three fields in order. -/
inductive IsDetailed : Json → Prop where
  /-- The record, its fields in any order. -/
  | record {members fields : List (String × Json)} (named : List.Forall₂ Names members fields)
      (distinct : (fields.map Prod.fst).Nodup) (known : ∀ field ∈ fields, IsKnown field)
      (required : "entries" ∈ fields.map Prod.fst) : IsDetailed (.object members)
  /-- The fields without their names. -/
  | sequence {sensitive index paths : Json} (rule : IsRule sensitive) (mark : IsMark index)
      (flat : IsFlat paths) : IsDetailed (.array [sensitive, index, paths])

/-- A document is read in the flat form exactly if it has this form. -/
theorem isSome_ofFlat?_iff (document : Json) : (ofFlat? document).isSome = true ↔ IsFlat document := by
  rw [ofFlat?, Option.isSome_map, Option.isSome_iff_exists]
  constructor
  · rintro ⟨sorted, read⟩
    obtain ⟨members, entries, same, each, -⟩ := entries?_eq_some_iff.1 read
    exact ⟨members, entries, same, each⟩
  · rintro ⟨members, entries, rfl, each⟩
    exact ⟨_, entries?_of_spells each⟩

section Fields

variable {fields : List (String × Json)} {name : String}

/-- As many values are under a name as there are fields with it. -/
theorem length_named (fields : List (String × Json)) (name : String) :
    (Json.named fields name).length = (fields.map Prod.fst).count name := by
  induction fields with
  | nil => rfl
  | cons field fields inductionHypothesis =>
    by_cases same : field.1 = name
    · simp [same, inductionHypothesis]
    · simp [same, inductionHypothesis]

/-- A field that may be left out is read exactly if it is there at most once and its value is read. -/
theorem isSome_fieldOr?_iff {α : Type} {absent : α} {read : Json → Option α} :
    (Json.fieldOr? fields name absent read).isSome = true ↔
      (fields.map Prod.fst).count name ≤ 1 ∧
        ∀ value, (name, value) ∈ fields → (read value).isSome = true := by
  simp only [← length_named, ← mem_named, Json.fieldOr?]
  rcases Json.named fields name with _ | ⟨only, _ | ⟨second, others⟩⟩
  · simp
  · simp
  · simp

/-- A field that has to be there is read exactly if it is there once and its value is read. -/
theorem isSome_field?_iff {α : Type} {read : Json → Option α} :
    (Json.field? fields name read).isSome = true ↔
      (fields.map Prod.fst).count name = 1 ∧
        ∀ value, (name, value) ∈ fields → (read value).isSome = true := by
  simp only [← length_named, ← mem_named, Json.field?]
  rcases Json.named fields name with _ | ⟨only, _ | ⟨second, others⟩⟩
  · simp
  · simp
  · simp

/-- A field that has to be there is read from the only value under its name. -/
theorem named_of_field? {α : Type} {result : α} {read : Json → Option α}
    (found : Json.field? fields name read = some result) :
    ∃ value, Json.named fields name = [value] ∧ read value = some result := by
  unfold Json.field? at found
  split at found
  · next value only => exact ⟨value, only, found⟩
  · cases found

end Fields

/-- A rule is read exactly from a document that declares one or leaves it open. -/
theorem isSome_rule?_iff (document : Json) : (rule? document).isSome = true ↔ IsRule document := by
  constructor
  · intro read
    cases document with
    | null => exact .inl rfl
    | bool sensitive => exact .inr ⟨sensitive, rfl⟩
    | _ => simp [rule?, Json.asOption?, Json.asBool?] at read
  · rintro (rfl | ⟨sensitive, rfl⟩)
    · rfl
    · rfl

/-- A mark for an index map is read exactly from a truth value. -/
theorem isSome_asBool?_iff (document : Json) : document.asBool?.isSome = true ↔ IsMark document := by
  constructor
  · intro read
    cases document with
    | bool isIndex => exact ⟨isIndex, rfl⟩
    | _ => simp [Json.asBool?] at read
  · rintro ⟨isIndex, rfl⟩
    rfl

/-- What is read from a record: its fields are known, and each is read from the value under its name. -/
theorem ofDetailed?_object_eq_some_iff {members : List (String × Json)} {declared : Declaration} :
    ofDetailed? (.object members) = some declared ↔
      ∃ fields, Json.fields? members = some fields ∧ (∀ field ∈ fields, field.1 ∈ fieldNames) ∧
        Json.fieldOr? fields "case_sensitive" none rule? = some declared.caseRule ∧
        Json.fieldOr? fields "index" false Json.asBool? = some declared.isIndex ∧
        Json.field? fields "entries" entries? = some declared.entries := by
  have known (fields : List (String × Json)) :
      (fields.all fun field => fieldNames.contains field.1) = true ↔
        ∀ field ∈ fields, field.1 ∈ fieldNames := by
    simp only [List.all_eq_true, List.contains_iff_mem]
  simp only [ofDetailed?, Option.bind_eq_bind, Option.bind_eq_some_iff]
  constructor
  · rintro ⟨fields, keyed, read⟩
    by_cases all : (fields.all fun field => fieldNames.contains field.1) = true
    · simp only [all, Bool.not_true, Bool.false_eq_true, if_false, Option.bind_eq_some_iff] at read
      obtain ⟨rule, sensitive, mark, index, entries, held, same⟩ := read
      obtain rfl := Option.some.inj same
      exact ⟨fields, keyed, (known fields).1 all, sensitive, index, held⟩
    · rw [Bool.not_eq_true] at all
      simp only [all, Bool.not_false, if_true, Option.bind_none] at read
      cases read
  · rintro ⟨fields, keyed, all, sensitive, index, held⟩
    refine ⟨fields, keyed, ?_⟩
    rw [(known fields).2 all, sensitive, index, held]
    rfl

/-- What is read from an array: it has three items, each read as the field in its place. -/
theorem ofDetailed?_array_eq_some_iff {items : List Json} {declared : Declaration} :
    ofDetailed? (.array items) = some declared ↔
      ∃ sensitive index paths, items = [sensitive, index, paths] ∧
        rule? sensitive = some declared.caseRule ∧ index.asBool? = some declared.isIndex ∧
        entries? paths = some declared.entries := by
  constructor
  · intro read
    match items with
    | [sensitive, index, paths] =>
      simp only [ofDetailed?, Option.bind_eq_bind, Option.bind_eq_some_iff] at read
      obtain ⟨rule, declares, mark, isBool, entries, held, same⟩ := read
      obtain rfl := Option.some.inj same
      exact ⟨sensitive, index, paths, rfl, declares, isBool, held⟩
    | [] | [_] | [_, _] | _ :: _ :: _ :: _ :: _ => simp [ofDetailed?] at read
  · rintro ⟨sensitive, index, paths, rfl, declares, isBool, held⟩
    rw [ofDetailed?, declares, isBool, held]
    rfl

/-- Entries are read exactly from a document in the flat form. -/
theorem isSome_entries?_iff (document : Json) : (entries? document).isSome = true ↔ IsFlat document := by
  rw [← isSome_ofFlat?_iff, ofFlat?, Option.isSome_map]

/-- The name of a known field is one of the three, and its value is of the sort for this name. -/
theorem IsKnown.value {field : String × Json} (known : IsKnown field) :
    field.1 ∈ fieldNames ∧ (field.1 = "case_sensitive" → IsRule field.2) ∧
      (field.1 = "index" → IsMark field.2) ∧ (field.1 = "entries" → IsFlat field.2) := by
  obtain ⟨name, value⟩ := field
  rcases known with ⟨rfl, rule⟩ | ⟨rfl, mark⟩ | ⟨rfl, flat⟩
  · exact ⟨by simp [fieldNames], fun _ => rule, fun same => by simp at same, fun same => by simp at same⟩
  · exact ⟨by simp [fieldNames], fun same => by simp at same, fun _ => mark, fun same => by simp at same⟩
  · exact ⟨by simp [fieldNames], fun same => by simp at same, fun same => by simp at same, fun _ => flat⟩

/-- A record is read from fields exactly if none is there twice, each is known, and the entries are
    there. -/
theorem isRead_iff (fields : List (String × Json)) :
    ((∀ field ∈ fields, field.1 ∈ fieldNames) ∧
        (Json.fieldOr? fields "case_sensitive" none rule?).isSome = true ∧
        (Json.fieldOr? fields "index" false Json.asBool?).isSome = true ∧
        (Json.field? fields "entries" entries?).isSome = true) ↔
      (fields.map Prod.fst).Nodup ∧ (∀ field ∈ fields, IsKnown field) ∧
        "entries" ∈ fields.map Prod.fst := by
  simp only [isSome_fieldOr?_iff, isSome_field?_iff, isSome_rule?_iff, isSome_asBool?_iff,
    isSome_entries?_iff]
  constructor
  · rintro ⟨names, ⟨oneRule, rules⟩, ⟨oneMark, marks⟩, ⟨oneObject, flats⟩⟩
    refine ⟨List.nodup_iff_count_le_one.2 ?_, ?_, ?_⟩
    · intro name
      by_cases present : name ∈ fields.map Prod.fst
      · obtain ⟨field, there, rfl⟩ := List.mem_map.1 present
        have known : field.1 ∈ fieldNames := names field there
        simp only [fieldNames, List.mem_cons, List.not_mem_nil, or_false] at known
        rcases known with same | same | same
        · exact same ▸ oneRule
        · exact same ▸ oneMark
        · exact same ▸ oneObject.le
      · rw [List.count_eq_zero.2 present]
        exact Nat.zero_le 1
    · rintro ⟨name, value⟩ there
      have known : name ∈ fieldNames := names _ there
      simp only [fieldNames, List.mem_cons, List.not_mem_nil, or_false] at known
      rcases known with rfl | rfl | rfl
      · exact .inl ⟨rfl, rules value there⟩
      · exact .inr (.inl ⟨rfl, marks value there⟩)
      · exact .inr (.inr ⟨rfl, flats value there⟩)
    · apply List.count_pos_iff.1
      omega
  · rintro ⟨distinct, known, required⟩
    have atMost (name : String) : (fields.map Prod.fst).count name ≤ 1 :=
      List.nodup_iff_count_le_one.1 distinct name
    refine ⟨fun field there => (known field there).value.1, ⟨atMost _, ?_⟩, ⟨atMost _, ?_⟩, ?_, ?_⟩
    · exact fun value there => (known _ there).value.2.1 rfl
    · exact fun value there => (known _ there).value.2.2.1 rfl
    · exact List.count_eq_one_of_mem distinct required
    · exact fun value there => (known _ there).value.2.2.2 rfl

/-- A document is read in the detailed form exactly if it has this form. -/
theorem isSome_ofDetailed?_iff (document : Json) :
    (ofDetailed? document).isSome = true ↔ IsDetailed document := by
  constructor
  · intro read
    obtain ⟨declared, read⟩ := Option.isSome_iff_exists.1 read
    cases document with
    | object members =>
      obtain ⟨fields, keyed, names, sensitive, index, held⟩ := ofDetailed?_object_eq_some_iff.1 read
      obtain ⟨distinct, known, required⟩ := (isRead_iff fields).1
        ⟨names, Option.isSome_of_eq_some sensitive, Option.isSome_of_eq_some index,
          Option.isSome_of_eq_some held⟩
      exact .record (fields?_eq_some_iff.1 keyed) distinct known required
    | array items =>
      obtain ⟨sensitive, index, paths, rfl, declares, isBool, held⟩ :=
        ofDetailed?_array_eq_some_iff.1 read
      exact .sequence ((isSome_rule?_iff sensitive).1 (Option.isSome_of_eq_some declares))
        ((isSome_asBool?_iff index).1 (Option.isSome_of_eq_some isBool))
        ((isSome_entries?_iff paths).1 (Option.isSome_of_eq_some held))
    | _ => cases read
  · intro detailed
    cases detailed with
    | @record members fields named distinct known required =>
      obtain ⟨names, sensitive, index, held⟩ := (isRead_iff fields).2 ⟨distinct, known, required⟩
      obtain ⟨rule, sensitive⟩ := Option.isSome_iff_exists.1 sensitive
      obtain ⟨mark, index⟩ := Option.isSome_iff_exists.1 index
      obtain ⟨sorted, held⟩ := Option.isSome_iff_exists.1 held
      have read : ofDetailed? (.object members) = some ⟨rule, mark, sorted⟩ :=
        ofDetailed?_object_eq_some_iff.2
          ⟨fields, fields?_eq_some_iff.2 named, names, sensitive, index, held⟩
      exact Option.isSome_of_eq_some read
    | @sequence sensitive index paths rule mark flat =>
      obtain ⟨rule, declares⟩ := Option.isSome_iff_exists.1 ((isSome_rule?_iff sensitive).2 rule)
      obtain ⟨mark, isBool⟩ := Option.isSome_iff_exists.1 ((isSome_asBool?_iff index).2 mark)
      obtain ⟨sorted, held⟩ := Option.isSome_iff_exists.1 ((isSome_entries?_iff paths).2 flat)
      have read : ofDetailed? (.array [sensitive, index, paths]) = some ⟨rule, mark, sorted⟩ :=
        ofDetailed?_array_eq_some_iff.2 ⟨sensitive, index, paths, rfl, declares, isBool, held⟩
      exact Option.isSome_of_eq_some read

/-- No document has both forms. A record has an object as one of its members, and an array is no
    object. -/
theorem IsDetailed.not_isFlat {document : Json} (detailed : IsDetailed document) :
    ¬IsFlat document := by
  rintro ⟨members, entries, same, each⟩
  cases detailed with
  | sequence rule mark flat => cases same
  | @record members fields named distinct known required =>
    obtain rfl := Json.object.inj same
    obtain ⟨⟨name, value⟩, there, rfl⟩ := List.mem_map.1 required
    have flat : IsFlat value := (known _ there).value.2.2.2 rfl
    obtain ⟨others, again, holds⟩ := spells_iff_fields.1 each
    obtain rfl : fields = others := Option.some.inj
      ((fields?_eq_some_iff.2 named).symm.trans (fields?_eq_some_iff.2 again))
    have notRead : entries? value = none := entries?_of_holds holds _ there
    rw [← isSome_entries?_iff, notRead] at flat
    cases flat

/-- A document is read in the detailed form only if it is not read in the flat form. -/
theorem ofFlat?_eq_none {document : Json} (detailed : (ofDetailed? document).isSome = true) :
    ofFlat? document = none := by
  rw [← Option.not_isSome_iff_eq_none, isSome_ofFlat?_iff]
  exact ((isSome_ofDetailed?_iff document).1 detailed).not_isFlat

/-- The declaration that a document is, the flat form tried first. -/
def ofJsonFlatFirst? (document : Json) : Option Declaration :=
  (ofFlat? document).orElse fun _ => ofDetailed? document

/-- The two forms may be tried in any order. -/
theorem ofJsonFlatFirst?_eq (document : Json) : ofJsonFlatFirst? document = ofJson? document := by
  unfold ofJsonFlatFirst? ofJson?
  cases detailed : ofDetailed? document with
  | none =>
    cases ofFlat? document with
    | none => rfl
    | some declared => rfl
  | some declared =>
    rw [ofFlat?_eq_none (Option.isSome_of_eq_some detailed)]
    rfl

/-- A declaration is read exactly from a document that is written in one of the forms, with the entries in
    the order of their keys. -/
theorem ofJson?_eq_some_iff {document : Json} {declared : Declaration} :
    ofJson? document = some declared ↔
      ∃ entries, Writes document declared.caseRule declared.isIndex entries ∧
        declared.entries = SortedPairs.ofList entries := by
  constructor
  · intro read
    rcases (Option.orElse_eq_some _ _ _).1 read with detailed | ⟨-, flat⟩
    · cases document with
      | object members =>
        obtain ⟨fields, keyed, names, sensitive, index, held⟩ :=
          ofDetailed?_object_eq_some_iff.1 detailed
        obtain ⟨value, only, found⟩ := named_of_field? held
        obtain ⟨paths, entries, rfl, each, sorted⟩ := entries?_eq_some_iff.1 found
        exact ⟨entries, .detailed keyed names sensitive index only each, sorted⟩
      | array items =>
        obtain ⟨sensitive, index, value, rfl, declares, isBool, held⟩ :=
          ofDetailed?_array_eq_some_iff.1 detailed
        obtain ⟨paths, entries, rfl, each, sorted⟩ := entries?_eq_some_iff.1 held
        exact ⟨entries, .listed declares isBool each, sorted⟩
      | _ => cases detailed
    · obtain ⟨sorted, found, rfl⟩ := Option.map_eq_some_iff.1 flat
      obtain ⟨members, entries, rfl, each, rfl⟩ := entries?_eq_some_iff.1 found
      exact ⟨entries, .flat each, rfl⟩
  · rintro ⟨entries, writes, sorted⟩
    rw [writes.ofJson?, ← sorted]

end Declaration

/-- The header map that a text is, the flat form tried first. -/
def ofTextFlatFirst (name : String) (text : String) (options : LoadOptions) : Except Error HeaderMap :=
  let declared? := do
    let document ← Json.parse? text
    if document.isHeld Json.nestingLimit then Declaration.ofJsonFlatFirst? document else none
  match declared? with
  | none => .error (.malformed name)
  | some declared => ofDeclaration name options declared

/-- Each form is read exactly where a document has it, and no document has both. So every text comes to
    the same map or the same refusal if the flat form is tried first, and a flat object may have any keys,
    those that name fields of the detailed form included: it is always read as entries. -/
theorem map_forms_are_disjoint :
    (∀ document, (Declaration.ofFlat? document).isSome = true ↔ Declaration.IsFlat document) ∧
    (∀ document, (Declaration.ofDetailed? document).isSome = true ↔
      Declaration.IsDetailed document) ∧
    (∀ document, ¬(Declaration.IsDetailed document ∧ Declaration.IsFlat document)) ∧
    (∀ name text options, ofTextFlatFirst name text options = ofText name text options) ∧
    ∀ text members entries, Json.parse? text = some (.object members) →
      List.Forall₂ Spells members entries → ∀ name options, ofText name text options =
        ofEntries name (options.caseRule.getD .insensitive) options.isIndex
          (SortedPairs.ofList entries) := by
  refine ⟨Declaration.isSome_ofFlat?_iff, Declaration.isSome_ofDetailed?_iff, ?_, ?_, ?_⟩
  · rintro document ⟨detailed, flat⟩
    exact detailed.not_isFlat flat
  · intro name text options
    have same : Declaration.ofJsonFlatFirst? = Declaration.ofJson? :=
      funext Declaration.ofJsonFlatFirst?_eq
    rw [ofTextFlatFirst, same]
    rfl
  · intro text members entries parsed each name options
    rw [ofText_of_writes parsed (.flat each), Bool.or_false]
    cases options.caseRule with
    | none => rfl
    | some rule => rfl

/-- A flat map may have the names of all three fields as its keys. -/
example : Declaration.ofJson? (.object
      [("entries", .string "/e"), ("index", .string "/i"), ("case_sensitive", .string "/c")]) =
    some ⟨none, false, [("case_sensitive", "/c"), ("entries", "/e"), ("index", "/i")]⟩ := by decide

end HeaderMap

end HeaderSearch
