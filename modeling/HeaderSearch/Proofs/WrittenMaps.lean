import HeaderSearch.HeaderMap.Document
import HeaderSearch.Proofs.Traversals

/-!
# How a header map is written

What a document has to look like to be the text of a header map: a flat object from keys to paths, a record
with such an object among its fields, or an array of the fields in order. What is written in one of these
forms is read as such, with the entries in the order of their keys and each key with its last path.
-/

namespace HeaderSearch

namespace HeaderMap

/-- A member of an object spells an entry of a header map: its key and the path. -/
structure Spells (member : String × Json) (entry : String × String) : Prop where
  key : Json.text? member.1 = some entry.1
  path : member.2.asText? = some entry.2

namespace Declaration

/-- A document has one of the forms of a header map. It declares a rule and whether the map is an index
    map, and has the given entries in the order in which they are written. -/
inductive Writes : Json → Option CaseRule → Bool → List (String × String) → Prop where
  /-- An object from keys to paths. -/
  | flat {members : List (String × Json)} {entries : List (String × String)}
      (each : List.Forall₂ Spells members entries) : Writes (.object members) none false entries
  /-- A record with known fields, one of them the object from keys to paths. -/
  | detailed {members fields paths : List (String × Json)} {rule : Option CaseRule} {isIndex : Bool}
      {entries : List (String × String)} (keyed : Json.fields? members = some fields)
      (known : ∀ field ∈ fields, field.1 ∈ fieldNames)
      (sensitive : Json.fieldOr? fields "case_sensitive" none rule? = some rule)
      (index : Json.fieldOr? fields "index" false Json.asBool? = some isIndex)
      (only : Json.named fields "entries" = [.object paths])
      (each : List.Forall₂ Spells paths entries) : Writes (.object members) rule isIndex entries
  /-- The fields of the record in order. -/
  | listed {sensitive index : Json} {paths : List (String × Json)} {rule : Option CaseRule}
      {isIndex : Bool} {entries : List (String × String)} (declared : rule? sensitive = some rule)
      (isBool : index.asBool? = some isIndex) (each : List.Forall₂ Spells paths entries) :
      Writes (.array [sensitive, index, .object paths]) rule isIndex entries

/-- A field holds an entry: its name is the key, and its value is the text of the path. -/
structure Holds (field : String × Json) (entry : String × String) : Prop where
  key : field.1 = entry.1
  path : field.2.asText? = some entry.2

/-- A member is a field: its key denotes the name, and the value is the same. -/
structure Names (member field : String × Json) : Prop where
  key : Json.text? member.1 = some field.1
  value : member.2 = field.2

/-- The fields of an object are its members under the texts of their keys. -/
theorem fields?_eq_some_iff {members fields : List (String × Json)} :
    Json.fields? members = some fields ↔ List.Forall₂ Names members fields := by
  rw [Json.fields?, mapM_eq_some_iff]
  have each (member field : String × Json) :
      (Json.text? member.1).map (·, member.2) = some field ↔ Names member field := by
    rw [Option.map_eq_some_iff]
    constructor
    · rintro ⟨name, key, rfl⟩
      exact ⟨key, rfl⟩
    · rintro ⟨key, value⟩
      exact ⟨field.1, key, by rw [value]⟩
  constructor
  · exact fun read => read.imp fun member field => (each member field).1
  · exact fun named => named.imp fun member field => (each member field).2

/-- The texts of fields are entries exactly if each field holds the one in its place. -/
theorem paths_eq_some_iff {fields : List (String × Json)} {entries : List (String × String)} :
    fields.mapM (fun (key, path) => path.asText?.map (key, ·)) = some entries ↔
      List.Forall₂ Holds fields entries := by
  rw [mapM_eq_some_iff]
  have each (field : String × Json) (entry : String × String) :
      field.2.asText?.map (field.1, ·) = some entry ↔ Holds field entry := by
    rw [Option.map_eq_some_iff]
    constructor
    · rintro ⟨path, text, rfl⟩
      exact ⟨rfl, text⟩
    · rintro ⟨key, path⟩
      exact ⟨entry.2, path, by rw [key]⟩
  constructor
  · exact fun read => read.imp fun field entry => (each field entry).1
  · exact fun holds => holds.imp fun field entry => (each field entry).2

/-- Members spell entries exactly if they are fields that hold them. -/
theorem spells_iff_fields {members : List (String × Json)} {entries : List (String × String)} :
    List.Forall₂ Spells members entries ↔
      ∃ fields, List.Forall₂ Names members fields ∧ List.Forall₂ Holds fields entries := by
  rw [← forall₂_comp_iff]
  have each (member : String × Json) (entry : String × String) :
      Spells member entry ↔ Relation.Comp Names Holds member entry := by
    constructor
    · intro spells
      exact ⟨(entry.1, member.2), ⟨spells.key, rfl⟩, ⟨rfl, spells.path⟩⟩
    · rintro ⟨field, names, holds⟩
      exact ⟨holds.key ▸ names.key, names.value ▸ holds.path⟩
  constructor
  · exact fun spells => spells.imp fun member entry => (each member entry).1
  · exact fun fields => fields.imp fun member entry => (each member entry).2

/-- Entries are read exactly from an object of which each member spells one of them. They are collected
    under their keys, the last one of each. -/
theorem entries?_eq_some_iff {document : Json} {sorted : List (String × String)} :
    entries? document = some sorted ↔
      ∃ members entries, document = .object members ∧ List.Forall₂ Spells members entries ∧
        sorted = SortedPairs.ofList entries := by
  constructor
  · intro read
    cases document with
    | object members =>
      simp only [entries?, Option.bind_eq_bind, Option.bind_eq_some_iff] at read
      obtain ⟨fields, keyed, entries, paths, same⟩ := read
      have each : List.Forall₂ Spells members entries :=
        spells_iff_fields.2 ⟨fields, fields?_eq_some_iff.1 keyed, paths_eq_some_iff.1 paths⟩
      exact ⟨members, entries, rfl, each, (Option.some.inj same).symm⟩
    | _ => simp [entries?] at read
  · rintro ⟨members, entries, rfl, each, rfl⟩
    obtain ⟨fields, named, holds⟩ := spells_iff_fields.1 each
    rw [entries?, fields?_eq_some_iff.2 named, Option.bind_eq_bind, Option.bind_some,
      paths_eq_some_iff.2 holds]
    rfl

/-- The members are collected under their spellings, the last one of each. -/
theorem entries?_of_spells {members : List (String × Json)} {entries : List (String × String)}
    (each : List.Forall₂ Spells members entries) :
    entries? (.object members) = some (SortedPairs.ofList entries) :=
  entries?_eq_some_iff.2 ⟨members, entries, rfl, each, rfl⟩

/-- The values under a name are those of the fields with the name. -/
theorem mem_named {fields : List (String × Json)} {name : String} {value : Json} :
    value ∈ Json.named fields name ↔ (name, value) ∈ fields := by
  rw [Json.named, List.mem_map]
  constructor
  · rintro ⟨⟨other, there⟩, filtered, rfl⟩
    obtain ⟨member, same⟩ := List.mem_filter.1 filtered
    obtain rfl := of_decide_eq_true same
    exact member
  · intro member
    exact ⟨_, List.mem_filter.2 ⟨member, decide_eq_true rfl⟩, rfl⟩

/-- The value of a field that holds an entry is a text, so no entries are read from it. -/
theorem entries?_of_holds {fields : List (String × Json)} {entries : List (String × String)}
    (each : List.Forall₂ Holds fields entries) : ∀ field ∈ fields, entries? field.2 = none := by
  refine ((List.forall₂_and_left _ _).1 (each.imp fun field entry holds => ⟨?_, holds⟩)).1
  have text := holds.path
  cases value : field.2 with
  | object members => simp [value, Json.asText?] at text
  | _ => rfl

/-- No field that holds an entry is an object of entries. -/
theorem field?_of_holds {fields : List (String × Json)} {entries : List (String × String)}
    (each : List.Forall₂ Holds fields entries) (name : String) :
    Json.field? fields name entries? = none := by
  unfold Json.field?
  split
  · next value only =>
    have member : value ∈ Json.named fields name := by
      rw [only]
      exact List.mem_cons_self
    exact entries?_of_holds each _ (mem_named.1 member)
  · rfl

/-- What is written in one of the forms is read as such: a flat object is never taken for a record,
    which would need an object under `entries`. -/
theorem Writes.ofJson? {document : Json} {rule : Option CaseRule} {isIndex : Bool}
    {entries : List (String × String)} (writes : Writes document rule isIndex entries) :
    ofJson? document = some ⟨rule, isIndex, SortedPairs.ofList entries⟩ := by
  cases writes with
  | @flat members entries each =>
    obtain ⟨fields, named, holds⟩ := spells_iff_fields.1 each
    have notDetailed : ofDetailed? (.object members) = none := by
      simp [ofDetailed?, fields?_eq_some_iff.2 named, field?_of_holds holds]
    rw [Declaration.ofJson?, notDetailed, Option.orElse_none, ofFlat?, entries?_of_spells each]
    rfl
  | @detailed members fields paths rule isIndex entries keyed known sensitive index only each =>
    have listed : Json.field? fields "entries" entries? = some (SortedPairs.ofList entries) := by
      rw [Json.field?, only]
      exact entries?_of_spells each
    have detailed : ofDetailed? (.object members) =
        some ⟨rule, isIndex, SortedPairs.ofList entries⟩ := by
      simpa [ofDetailed?, keyed, sensitive, index, listed] using fun name value member =>
        known (name, value) member
    rw [Declaration.ofJson?, detailed]
    rfl
  | listed declared isBool each =>
    rw [Declaration.ofJson?, ofDetailed?, declared, isBool, entries?_of_spells each]
    rfl

/-- Members are held as values if their keys are texts and their values are held. -/
theorem membersHeld_of_forall {room : Nat} {members : List (String × Json)}
    (each : ∀ member ∈ members, (Json.text? member.1).isSome = true ∧ member.2.isHeld room = true) :
    Json.membersHeld room members = true := by
  induction members with
  | nil => rfl
  | cons member members inductionHypothesis =>
    obtain ⟨first, others⟩ := List.forall_mem_cons.1 each
    rw [Json.membersHeld, first.1, first.2, inductionHypothesis others]
    rfl

/-- An object of entries is held. -/
theorem isHeld_of_spells {members : List (String × Json)} {entries : List (String × String)}
    (each : List.Forall₂ Spells members entries) (room : Nat) :
    (Json.object members).isHeld (room + 1) = true := by
  rw [Json.isHeld]
  refine membersHeld_of_forall ?_
  refine ((List.forall₂_and_left _ _).1 (each.imp fun member entry spells => ⟨⟨?_, ?_⟩, spells⟩)).1
  · rw [spells.key]
    rfl
  · have text := spells.path
    cases value : member.2 with
    | string body => simpa [value, Json.asText?, Json.isHeld] using congrArg Option.isSome text
    | _ => simp [value, Json.asText?] at text

/-- Every member is a field under the text of its key. -/
theorem field_of_member {members fields : List (String × Json)}
    (keyed : Json.fields? members = some fields) {member : String × Json} (there : member ∈ members) :
    ∃ name, Json.text? member.1 = some name ∧ (name, member.2) ∈ fields := by
  obtain ⟨field, present, names⟩ := exists_of_forall₂ (fields?_eq_some_iff.1 keyed) there
  exact ⟨field.1, names.key, names.value ▸ present⟩

/-- A field that is there is the one that is read. -/
theorem read_of_fieldOr? {α : Type} {fields : List (String × Json)} {name : String} {absent result : α}
    {read : Json → Option α} (found : Json.fieldOr? fields name absent read = some result) {value : Json}
    (there : (name, value) ∈ fields) : read value = some result := by
  have member := mem_named.2 there
  unfold Json.fieldOr? at found
  split at found
  · next none =>
    rw [none] at member
    cases member
  · next only =>
    rw [only, List.mem_singleton] at member
    rwa [member]
  · cases found

/-- A declared rule and a mark for an index map are held without any nesting. -/
theorem isHeld_of_rule? {document : Json} {rule : Option CaseRule} (room : Nat)
    (declared : rule? document = some rule) : document.isHeld room = true := by
  cases document <;> first | rfl | simp [rule?, Json.asOption?, Json.asBool?] at declared

theorem isHeld_of_asBool? {document : Json} {value : Bool} (room : Nat)
    (isBool : document.asBool? = some value) : document.isHeld room = true := by
  cases document <;> first | rfl | simp [Json.asBool?] at isBool

/-- What is written in one of the forms is held. -/
theorem Writes.isHeld {document : Json} {rule : Option CaseRule} {isIndex : Bool}
    {entries : List (String × String)} (writes : Writes document rule isIndex entries) :
    document.isHeld Json.nestingLimit = true := by
  cases writes with
  | flat each => exact isHeld_of_spells each 126
  | @detailed members fields paths rule isIndex entries keyed known sensitive index only each =>
    rw [Json.nestingLimit, Json.isHeld]
    refine membersHeld_of_forall fun member there => ?_
    obtain ⟨name, text, field⟩ := field_of_member keyed there
    refine ⟨by rw [text]; rfl, ?_⟩
    have names := known _ field
    simp only [fieldNames, List.mem_cons, List.not_mem_nil, or_false] at names
    rcases names with rfl | rfl | rfl
    · exact isHeld_of_rule? 126 (read_of_fieldOr? sensitive field)
    · exact isHeld_of_asBool? 126 (read_of_fieldOr? index field)
    · have named := mem_named.2 field
      rw [only, List.mem_singleton] at named
      rw [named]
      exact isHeld_of_spells each 125
  | listed declared isBool each =>
    rw [Json.nestingLimit, Json.isHeld, Json.areHeld, Json.areHeld, Json.areHeld, Json.areHeld,
      isHeld_of_rule? 126 declared, isHeld_of_asBool? 126 isBool, isHeld_of_spells each 125]
    rfl

end Declaration

/-- The outcome for a text in one of the forms is that of its entries, each key with its last path. -/
theorem ofText_of_writes {text : String} {document : Json} {rule : Option CaseRule} {isIndex : Bool}
    {entries : List (String × String)} (parsed : Json.parse? text = some document)
    (writes : Declaration.Writes document rule isIndex entries) (name : String)
    (options : LoadOptions) : ofText name text options =
      ofEntries name ((options.caseRule.orElse fun _ => rule).getD .insensitive)
        (options.isIndex || isIndex) (SortedPairs.ofList entries) := by
  have read : Declaration.ofText? text = some ⟨rule, isIndex, SortedPairs.ofList entries⟩ := by
    rw [Declaration.ofText?, parsed, Option.bind_eq_bind, Option.bind_some, if_pos writes.isHeld,
      writes.ofJson?]
  rw [ofText, read]
  rfl

end HeaderMap

end HeaderSearch
