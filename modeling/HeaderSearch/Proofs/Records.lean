import HeaderSearch.Json.Record
import HeaderSearch.Proofs.Documents
import HeaderSearch.Proofs.Traversals

/-!
# Reading records back

The fields of a record keep their names and values when the record is written and read. What is read
for a name depends only on the values under that name, so each field of a record is read back by
itself: one that is always there, one that is left out without a value, and one that is there only if
it is true.
-/

namespace HeaderSearch.Json

/-- The string of a text is well written. -/
theorem WellWritten.ofText (text : String) : WellWritten (ofText text) :=
  .string (isBody_escape text)

/-- The document of a natural number is well written. -/
theorem WellWritten.ofNat (n : Nat) : WellWritten (ofNat n) := .number (isNumeral_natural n)

/-- A record is well written if its values are. -/
theorem WellWritten.ofFields {fields : List (String × Json)}
    (each : ∀ field ∈ fields, WellWritten field.2) : WellWritten (ofFields fields) := by
  refine .object ?_ ?_
  · intro member inside
    obtain ⟨field, _, rfl⟩ := List.mem_map.mp inside
    exact isBody_escape field.1
  · intro member inside
    obtain ⟨field, there, rfl⟩ := List.mem_map.mp inside
    exact each field there

/-- Written items are read back if each of them is. -/
theorem mapM_read {α β : Type} {write : α → β} {read : β → Option α} {items : List α}
    (each : ∀ item ∈ items, read (write item) = some item) :
    (items.map write).mapM read = some items := by
  rw [mapM_eq_some_iff, List.forall₂_map_left_iff, List.forall₂_same]
  exact each

/-- A written list is read back if each of its items is. -/
theorem asList?_map {α : Type} {write : α → Json} {read : Json → Option α} {items : List α}
    (each : ∀ item ∈ items, read (write item) = some item) :
    asList? read (.array (items.map write)) = some items := mapM_read each

/-- The fields of a record are read with their names. -/
theorem fields?_map_member (fields : List (String × Json)) :
    fields? (fields.map fun (name, value) => member name value) = some fields := by
  refine mapM_read fun field _ => ?_
  obtain ⟨name, value⟩ := field
  simp only [member, text?_escape, Option.map_some]

@[simp] theorem asText?_ofText (text : String) : asText? (ofText text) = some text :=
  text?_escape text

@[simp] theorem asChoice?_ofText (text : String) : asChoice? (ofText text) = some text :=
  text?_escape text

/-- A natural number is read back below a bound of at most 64 bits. -/
theorem asNatBelow?_ofNat {n bound : Nat} (below : n < bound) (fits : bound ≤ UInt64.size) :
    asNatBelow? bound (ofNat n) = some n := by
  rw [ofNat, asNatBelow?, ofLiteral?_natural (Nat.lt_of_lt_of_le below fits)]
  exact if_pos below

section Fields

variable {fields others : List (String × Json)} {name : String}

@[simp] theorem named_nil : named [] name = [] := rfl

/-- The first field counts if it has the name. -/
@[simp] theorem named_cons (field : String × Json) :
    named (field :: fields) name =
      if field.1 = name then field.2 :: named fields name else named fields name := by
  by_cases same : field.1 = name <;> simp [named, same]

/-- The values under a name are found in each part of the fields. -/
@[simp] theorem named_append :
    named (fields ++ others) name = named fields name ++ named others name := by
  rw [named, List.filter_append, List.map_append]
  rfl

/-- A field that is there under a condition counts under the condition. -/
@[simp] theorem named_flag {flag : Bool} {other : String} {value : Json} :
    named (if flag then [(other, value)] else []) name =
      if other = name then (if flag then [value] else []) else [] := by
  cases flag <;> simp

/-- A field that is left out under a condition counts without the condition. -/
@[simp] theorem named_unless {condition : Prop} [Decidable condition] {other : String}
    {value : Json} :
    named (if condition then [] else [(other, value)]) name =
      if other = name then (if condition then [] else [value]) else [] := by
  by_cases left : condition <;> simp [left]

/-- A field that is there with a content counts with the content. -/
@[simp] theorem named_optional {α : Type} {content : Option α} {other : String}
    {write : α → Json} :
    named (content.map fun value => (other, write value)).toList name =
      if other = name then (content.map write).toList else [] := by
  cases content <;> simp

variable {α : Type} {read : Json → Option α}

/-- A field that is there is read from its value. -/
theorem field?_of_named (value : Json) (there : named fields name = [value]) :
    field? fields name read = read value := by
  rw [field?, there]

/-- A field that may be left out is read from its value if it is there. -/
theorem fieldOr?_of_named (value : Json) {absent : α} (there : named fields name = [value]) :
    fieldOr? fields name absent read = read value := by
  rw [fieldOr?, there]

/-- A field that is left out without a value is read back. -/
theorem fieldOr?_optional {content : Option α} (write : α → Json)
    {read : Json → Option (Option α)}
    (there : named fields name = (content.map write).toList)
    (each : ∀ value ∈ content, read (write value) = some (some value)) :
    fieldOr? fields name none read = some content := by
  cases content with
  | none => rw [fieldOr?, there]; rfl
  | some value => rw [fieldOr?_of_named _ there, each value rfl]

/-- A field that is there only if it is true is read back. -/
theorem fieldOr?_flag {flag : Bool}
    (there : named fields name = if flag then [.bool true] else []) :
    fieldOr? fields name false asBool? = some flag := by
  cases flag <;> (rw [fieldOr?, there]; rfl)

/-- A list that is left out when it is empty is read back. -/
theorem fieldOr?_list {content : List α} (write : α → Json)
    (there : named fields name =
      if content = [] then [] else [.array (content.map write)])
    (each : ∀ value ∈ content, read (write value) = some value) :
    fieldOr? fields name [] (asList? read) = some content := by
  cases content with
  | nil => rw [fieldOr?, there]; rfl
  | cons value values => rw [fieldOr?_of_named _ there, asList?_map each]

end Fields

end HeaderSearch.Json
