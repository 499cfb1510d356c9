import HeaderSearch.FileStore.Basic
import HeaderSearch.Include.Kind
import HeaderSearch.Table

/-!
# The cache of lookup outcomes

A cache remembers outcomes of two sorts of questions: what a search list answers to a name of a kind,
and whether the directory of an including file holds a name. An outcome is a hit or a miss, and a
remembered miss differs from a question that was never asked. Nothing is ever forgotten.
-/

namespace HeaderSearch

/-- The outcomes of one name, by kind. -/
structure KindOutcomes (α : Type) where
  /-- The outcome of the angled include. -/
  angled : Option (Option α) := none
  /-- The outcome of the quoted include. -/
  quoted : Option (Option α) := none

namespace KindOutcomes

variable {α : Type}

/-- The outcome of a kind, if it is remembered. -/
def get? (outcomes : KindOutcomes α) : IncludeKind → Option (Option α)
  | .angled => outcomes.angled
  | .quoted => outcomes.quoted

/-- The outcomes with the one of a kind replaced. -/
def set (outcomes : KindOutcomes α) (kind : IncludeKind) (outcome : Option α) : KindOutcomes α :=
  match kind with
  | .angled => { outcomes with angled := some outcome }
  | .quoted => { outcomes with quoted := some outcome }

@[simp] theorem get?_set_self (outcomes : KindOutcomes α) (kind : IncludeKind)
    (outcome : Option α) : (outcomes.set kind outcome).get? kind = some outcome := by
  cases kind <;> rfl

/-- Setting the outcome of one kind leaves the other kind alone. -/
theorem get?_set_of_ne (outcomes : KindOutcomes α) {kind other : IncludeKind}
    (outcome : Option α) (differs : other ≠ kind) :
    (outcomes.set kind outcome).get? other = outcomes.get? other := by
  cases kind <;> cases other <;> simp_all [get?, set]

/-- How many of the kinds have a remembered outcome. -/
def size (outcomes : KindOutcomes α) : Nat :=
  (if outcomes.angled.isSome then 1 else 0) + (if outcomes.quoted.isSome then 1 else 0)

end KindOutcomes

/-- The remembered outcomes of lookups. -/
structure LookupCache (α : Type) where
  /-- The outcomes of search lists, by name. -/
  listed : Table String (KindOutcomes α) := .empty
  /-- The outcomes of including directories, by directory and name. -/
  beside : Table DirHandle (Table String (Option α)) := .empty

namespace LookupCache

variable {α : Type}

/-- The cache before the first lookup. -/
def empty : LookupCache α := {}

instance : Inhabited (LookupCache α) := ⟨empty⟩

/-- The outcome of a name and kind in the search list. -/
def get? (cache : LookupCache α) (name : String) (kind : IncludeKind) : Option (Option α) :=
  (cache.listed.get? name).bind (·.get? kind)

/-- The cache with the outcome of a name and kind in the search list. -/
def insert (cache : LookupCache α) (name : String) (kind : IncludeKind) (outcome : Option α) :
    LookupCache α :=
  let outcomes := (cache.listed.get? name).getD {}
  { cache with listed := cache.listed.insert name (outcomes.set kind outcome) }

/-- The outcome of a name in an including directory. -/
def getBeside? (cache : LookupCache α) (directory : DirHandle) (name : String) :
    Option (Option α) :=
  (cache.beside.get? directory).bind (·.get? name)

/-- The cache with the outcome of a name in an including directory. -/
def insertBeside (cache : LookupCache α) (directory : DirHandle) (name : String)
    (outcome : Option α) : LookupCache α :=
  let outcomes := (cache.beside.get? directory).getD .empty
  { cache with beside := cache.beside.insert directory (outcomes.insert name outcome) }

@[simp] theorem get?_empty (name : String) (kind : IncludeKind) :
    (empty : LookupCache α).get? name kind = none := rfl

@[simp] theorem getBeside?_empty (directory : DirHandle) (name : String) :
    (empty : LookupCache α).getBeside? directory name = none := rfl

/-- Remembering the outcome of a name and kind changes the answer for these alone. -/
theorem get?_insert (cache : LookupCache α) (name other : String) (kind wanted : IncludeKind)
    (outcome : Option α) :
    (cache.insert name kind outcome).get? other wanted =
      if other = name ∧ wanted = kind then some outcome else cache.get? other wanted := by
  simp only [get?, insert, Table.get?_insert]
  by_cases sameName : other = name
  · subst sameName
    by_cases sameKind : wanted = kind
    · subst sameKind
      simp
    · simp only [sameKind, and_false, if_false, if_true, Option.bind_some,
        KindOutcomes.get?_set_of_ne _ outcome sameKind]
      cases cache.listed.get? other with
      | none => cases wanted <;> rfl
      | some outcomes => rfl
  · simp [sameName]

/-- The outcomes of including directories are kept apart from those of the list. -/
@[simp] theorem getBeside?_insert (cache : LookupCache α) (name other : String)
    (kind : IncludeKind) (directory : DirHandle) (outcome : Option α) :
    (cache.insert name kind outcome).getBeside? directory other =
      cache.getBeside? directory other := rfl

/-- Remembering the outcome of a name in a directory changes the answer for these alone. -/
theorem getBeside?_insertBeside (cache : LookupCache α) (directory asked : DirHandle)
    (name other : String) (outcome : Option α) :
    (cache.insertBeside directory name outcome).getBeside? asked other =
      if asked = directory ∧ other = name then some outcome else cache.getBeside? asked other := by
  simp only [getBeside?, insertBeside, Table.get?_insert]
  by_cases sameDirectory : asked = directory
  · subst sameDirectory
    by_cases sameName : other = name
    · subst sameName
      simp
    · simp only [sameName, and_false, if_false, if_true, Option.bind_some, Table.get?_insert]
      cases cache.beside.get? asked <;> rfl
  · simp [sameDirectory]

/-- The outcomes of the list are kept apart from those of including directories. -/
@[simp] theorem get?_insertBeside (cache : LookupCache α) (directory : DirHandle)
    (name other : String) (kind : IncludeKind) (outcome : Option α) :
    (cache.insertBeside directory name outcome).get? other kind = cache.get? other kind := rfl

/-- The number of remembered outcomes. -/
def size (cache : LookupCache α) : Nat :=
  cache.listed.values.foldr (fun outcomes total => outcomes.size + total) 0 +
    cache.beside.values.foldr (fun outcomes total => outcomes.size + total) 0

/-- Whether no outcome is remembered. -/
def isEmpty (cache : LookupCache α) : Bool := cache.size = 0

end LookupCache

end HeaderSearch
