import Mathlib.Data.Finset.Card
import Mathlib.Data.List.Nodup
import HeaderSearch.LookupCache

/-!
# How many outcomes a cache remembers

The size of a cache is counted along its tables, which hold a collection of outcomes under each key. It
is the number of different questions that the cache has an outcome for.
-/

namespace HeaderSearch

namespace Table

variable {κ ν β : Type} [DecidableEq κ]

/-- The pairs of a table are its keys with the values under them. -/
theorem mem_pairs_iff (table : Table κ ν) {key : κ} {value : ν} :
    (key, value) ∈ table.pairs ↔ table.get? key = some value := by
  rw [get?, Option.map_eq_some_iff]
  constructor
  · intro here
    have found : (table.pairs.find? fun pair => pair.1 = key).isSome := by
      rw [List.find?_isSome]
      exact ⟨_, here, by simp⟩
    obtain ⟨pair, first⟩ := Option.isSome_iff_exists.mp found
    have named : pair.1 = key := by simpa using List.find?_some first
    obtain rfl : pair = (key, value) := List.inj_on_of_nodup_map table.distinct
      (List.mem_of_find?_eq_some first) here named
    exact ⟨_, first, rfl⟩
  · rintro ⟨pair, first, rfl⟩
    have named : pair.1 = key := by simpa using List.find?_some first
    rw [← named]
    exact List.mem_of_find?_eq_some first

/-- The keys of a table of collections, each with the members of the collection under it. -/
def within (table : Table κ ν) (members : ν → List β) : List (κ × β) :=
  table.pairs.flatMap fun pair => (members pair.2).map fun member => (pair.1, member)

theorem mem_within (table : Table κ ν) (members : ν → List β) {key : κ} {member : β} :
    (key, member) ∈ table.within members ↔
      ∃ value, table.get? key = some value ∧ member ∈ members value := by
  simp only [within, List.mem_flatMap, List.mem_map, Prod.mk.injEq, Prod.exists]
  constructor
  · rintro ⟨key, value, here, member, there, rfl, rfl⟩
    exact ⟨value, (table.mem_pairs_iff).mp here, there⟩
  · rintro ⟨value, here, there⟩
    exact ⟨key, value, (table.mem_pairs_iff).mpr here, member, there, rfl, rfl⟩

omit [DecidableEq κ] in
/-- No key comes twice with one member. -/
theorem within_nodup (table : Table κ ν) {members : ν → List β}
    (once : ∀ value, (members value).Nodup) : (table.within members).Nodup := by
  refine List.nodup_flatMap.mpr ⟨fun pair _ => ?_, ?_⟩
  · exact (once pair.2).map fun _ _ same => (Prod.mk.inj same).2
  · refine (List.pairwise_map.mp table.distinct).imp fun {one other} differ item here there => ?_
    obtain ⟨_, _, rfl⟩ := List.mem_map.mp here
    obtain ⟨_, _, same⟩ := List.mem_map.mp there
    exact differ (Prod.mk.inj same).1.symm

omit [DecidableEq κ] in
theorem length_within (table : Table κ ν) (members : ν → List β) :
    (table.within members).length =
      table.values.foldr (fun value total => (members value).length + total) 0 := by
  unfold within values
  induction table.pairs with
  | nil => rfl
  | cons pair pairs inductionHypothesis =>
    rw [List.flatMap_cons, List.length_append, List.length_map, inductionHypothesis]
    rfl

end Table

/-- The kinds whose outcomes are remembered. -/
def KindOutcomes.kinds {α : Type} (outcomes : KindOutcomes α) : List IncludeKind :=
  [IncludeKind.angled, .quoted].filter fun kind => (outcomes.get? kind).isSome

namespace KindOutcomes

variable {α : Type} (outcomes : KindOutcomes α)

theorem mem_kinds {kind : IncludeKind} :
    kind ∈ outcomes.kinds ↔ (outcomes.get? kind).isSome := by
  cases kind <;> simp [kinds]

theorem kinds_nodup : outcomes.kinds.Nodup := by
  have all : [IncludeKind.angled, .quoted].Nodup := by decide
  exact all.filter _

theorem length_kinds : outcomes.kinds.length = outcomes.size := by
  unfold kinds size
  cases angled : outcomes.angled <;> cases quoted : outcomes.quoted <;> simp [get?, angled, quoted]

end KindOutcomes

namespace LookupCache

variable {α : Type}

/-- The size of a cache is the number of different questions that it has an outcome for. -/
theorem size_eq_card {cache : LookupCache α} {listed : Finset (String × IncludeKind)}
    {beside : Finset (DirHandle × String)}
    (holdsListed : ∀ name kind, (cache.get? name kind).isSome ↔ (name, kind) ∈ listed)
    (holdsBeside : ∀ directory name,
      (cache.getBeside? directory name).isSome ↔ (directory, name) ∈ beside) :
    cache.size = listed.card + beside.card := by
  have listedKeys : (cache.listed.within KindOutcomes.kinds).toFinset = listed := by
    ext ⟨name, kind⟩
    rw [List.mem_toFinset, Table.mem_within, ← holdsListed, get?]
    cases cache.listed.get? name <;> simp [KindOutcomes.mem_kinds]
  have besideKeys : (cache.beside.within Table.keys).toFinset = beside := by
    ext ⟨directory, name⟩
    rw [List.mem_toFinset, Table.mem_within, ← holdsBeside, getBeside?]
    cases cache.beside.get? directory <;>
      simp [← Table.contains_iff, Table.contains_eq_isSome_get?]
  have once (names : Table String (Option α)) : names.keys.Nodup := names.distinct
  rw [← listedKeys, ← besideKeys,
    List.toFinset_card_of_nodup (cache.listed.within_nodup KindOutcomes.kinds_nodup),
    List.toFinset_card_of_nodup (cache.beside.within_nodup once), Table.length_within,
    Table.length_within, size]
  simp only [KindOutcomes.length_kinds, Table.size_eq_length_keys]

end LookupCache

end HeaderSearch
