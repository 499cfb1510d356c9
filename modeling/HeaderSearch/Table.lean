/-!
# Finite maps that keep the order of their keys

A `Table` lists its keys in the order in which they first came, no key twice. Inserting under a key
that is there replaces the value and keeps the place, so the place of a key (its slot) never changes.
The laws give what each operation does to `get?`, to the number of keys and to the slots.
-/

namespace HeaderSearch

/-- A finite map, as the list of its keys and values in the order in which the keys first came. -/
structure Table (κ : Type) (ν : Type) where
  /-- The keys with their values. -/
  pairs : List (κ × ν)
  /-- No key is there twice. -/
  distinct : (pairs.map Prod.fst).Nodup

namespace Table

variable {κ ν : Type}

/-- The table without keys. -/
def empty : Table κ ν := ⟨[], List.nodup_nil⟩

instance : Inhabited (Table κ ν) := ⟨empty⟩

/-- The keys in the order in which they first came. -/
def keys (table : Table κ ν) : List κ := table.pairs.map Prod.fst

/-- The values in the order of their keys. -/
def values (table : Table κ ν) : List ν := table.pairs.map Prod.snd

/-- The number of keys. -/
def size (table : Table κ ν) : Nat := table.pairs.length

/-- Whether the table has no key. -/
def isEmpty (table : Table κ ν) : Bool := table.pairs.isEmpty

variable [DecidableEq κ]

/-- The value under a key. -/
def get? (table : Table κ ν) (key : κ) : Option ν :=
  (table.pairs.find? fun pair => pair.1 = key).map Prod.snd

/-- The place of a key in the order of the keys. -/
def slot? (table : Table κ ν) (key : κ) : Option Nat :=
  table.pairs.findIdx? fun pair => pair.1 = key

/-- Whether a key is in the table. -/
def contains (table : Table κ ν) (key : κ) : Bool :=
  table.pairs.any fun pair => pair.1 = key

/-- The pairs with the value under a key replaced. -/
def replace (key : κ) (value : ν) (pairs : List (κ × ν)) : List (κ × ν) :=
  pairs.map fun pair => if pair.1 = key then (pair.1, value) else pair

theorem keys_replace (key : κ) (value : ν) (pairs : List (κ × ν)) :
    (replace key value pairs).map Prod.fst = pairs.map Prod.fst := by
  induction pairs with
  | nil => rfl
  | cons pair rest kept =>
    have first : (if pair.1 = key then (pair.1, value) else pair).1 = pair.1 := by split <;> rfl
    simp only [replace, List.map_cons, first] at kept ⊢
    rw [kept]

theorem contains_iff (table : Table κ ν) (key : κ) :
    table.contains key = true ↔ key ∈ table.keys := by
  simp [contains, keys]

/-- The table with a value under a key: in the key's own place if the key is there, and as the last
    key otherwise. -/
def insert (table : Table κ ν) (key : κ) (value : ν) : Table κ ν :=
  if present : table.contains key then
    ⟨replace key value table.pairs, by rw [keys_replace]; exact table.distinct⟩
  else
    ⟨table.pairs ++ [(key, value)], by
      have absent : key ∉ table.keys := fun member => present ((table.contains_iff key).2 member)
      rw [List.map_append, List.nodup_append]
      refine ⟨table.distinct, by simp, ?_⟩
      intro other member last same equal
      simp only [List.map_cons, List.map_nil, List.mem_singleton] at same
      exact absent (same ▸ equal ▸ member)⟩

@[simp] theorem get?_empty (key : κ) : (empty : Table κ ν).get? key = none := rfl

@[simp] theorem contains_empty (key : κ) : (empty : Table κ ν).contains key = false := rfl

omit [DecidableEq κ] in
@[simp] theorem size_empty : (empty : Table κ ν).size = 0 := rfl

omit [DecidableEq κ] in
@[simp] theorem keys_empty : (empty : Table κ ν).keys = [] := rfl

/-- A key is in the table exactly when there is a value under it. -/
theorem contains_eq_isSome_get? (table : Table κ ν) (key : κ) :
    table.contains key = (table.get? key).isSome := by
  rw [contains, get?, Option.isSome_map, Bool.eq_iff_iff, List.any_eq_true, List.find?_isSome]

theorem find?_replace (key other : κ) (value : ν) (pairs : List (κ × ν)) :
    (replace key value pairs).find? (fun pair => pair.1 = other) =
      (pairs.find? fun pair => pair.1 = other).map fun pair =>
        if pair.1 = key then (pair.1, value) else pair := by
  rw [replace, List.find?_map]
  congr 2
  funext pair
  by_cases same : pair.1 = key <;> simp [same]

/-- A value is found under the key that it was inserted under, and every other key is left alone. -/
theorem get?_insert (table : Table κ ν) (key other : κ) (value : ν) :
    (table.insert key value).get? other = if other = key then some value else table.get? other := by
  by_cases present : table.contains key
  · have found := present
    rw [contains_eq_isSome_get?, get?, Option.isSome_map] at found
    rw [insert, dif_pos present, get?, find?_replace]
    by_cases same : other = key
    · subst same
      obtain ⟨pair, first⟩ := Option.isSome_iff_exists.1 found
      have named : pair.1 = other := by simpa using List.find?_some first
      simp [first, named]
    · rw [if_neg same, get?, Option.map_map]
      cases first : table.pairs.find? fun pair => pair.1 = other with
      | none => rfl
      | some pair =>
        have named : pair.1 = other := by simpa using List.find?_some first
        simp [named, same]
  · rw [insert, dif_neg present, get?, List.find?_append]
    have absent : table.get? key = none := by
      simpa [contains_eq_isSome_get?] using present
    by_cases same : other = key
    · subst same
      rw [get?, Option.map_eq_none_iff] at absent
      simp [absent]
    · simp [get?, same, Ne.symm same]

@[simp] theorem get?_insert_self (table : Table κ ν) (key : κ) (value : ν) :
    (table.insert key value).get? key = some value := by
  rw [get?_insert, if_pos rfl]

theorem get?_insert_of_ne (table : Table κ ν) {key other : κ} (value : ν) (differs : other ≠ key) :
    (table.insert key value).get? other = table.get? other := by
  rw [get?_insert, if_neg differs]

/-- A key that is there keeps its place, and a new one comes last. -/
theorem keys_insert (table : Table κ ν) (key : κ) (value : ν) :
    (table.insert key value).keys =
      if table.contains key then table.keys else table.keys ++ [key] := by
  unfold insert keys
  split
  · exact keys_replace key value table.pairs
  · simp

omit [DecidableEq κ] in
theorem size_eq_length_keys (table : Table κ ν) : table.size = table.keys.length := by
  simp [size, keys]

/-- A new key makes the table larger by one, and a key that is there does not. -/
theorem size_insert (table : Table κ ν) (key : κ) (value : ν) :
    (table.insert key value).size = if table.contains key then table.size else table.size + 1 := by
  rw [size_eq_length_keys, size_eq_length_keys, keys_insert]
  split <;> simp

end Table

end HeaderSearch
